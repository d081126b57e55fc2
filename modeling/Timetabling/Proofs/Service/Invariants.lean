import Timetabling.Proofs.Service.Sections
import Mathlib.Data.List.Perm.Subperm

/-! # Invariants of the service and its workers

Three invariants hold over every interleaving of the service's locked sections and every way
its runs end; each has a step lemma, one case per section. The queue's bookkeeping agrees with
the workers' (`QueueSound`): its running set is what the workers hold, no two live tasks share
a job, and none is past the last attempt. The job store is consistent (`JobsSound`), and the job
of a handler that started is there and has not ended. The runs so far account for every live
task (`RunsSound`): each job's runs are its attempts in order, every run but the last is one the
service retries, and a task waits with as many runs behind it as its attempt (`Phase.Tallies`).

The job store's step lemma needs the queue's invariant (a cancel finds a started task in the
running set), and so does the runs' (distinct live tasks belong to distinct jobs). -/

namespace Timetabling

/-- How the runs of a job stand with one of its tasks at an attempt, in a phase. A task that
has not run yet has as many runs behind it as its attempt, all of them runs the service retries;
a task whose run returned has one more, and hands the queue a failure to retry only after runs
the service retries. A handler that found its job gone or ended returns success without a run. -/
def Phase.Tallies (settings : ServiceSettings) (rs : List (QueueJob × Except RunFailure RunResult))
    (attempt : Nat) : Phase → Prop
  | .taken | .started => rs.length = attempt ∧ ∀ r ∈ rs, settings.retryable r.1.attempt r.2
  | .returned answer =>
    (answer = .ok () ∧ rs.length = attempt ∧ ∀ r ∈ rs, settings.retryable r.1.attempt r.2) ∨
      (rs.length = attempt + 1 ∧
        ∀ f, answer = .error f → f.isPermanent = false → ∀ r ∈ rs, settings.retryable r.1.attempt r.2)

namespace Workers

variable {w w' : Workers}

/-- The runs of a job are read off the runs alone. -/
theorem runsOf_congr (h : w'.runs = w.runs) : w'.runsOf = w.runsOf := by
  funext id
  simp only [runsOf, h]

/-- A run recorded adds to the runs of its own job only. -/
theorem runsOf_append {x : QueueJob × Except RunFailure RunResult} (h : w'.runs = w.runs ++ [x])
    (id : String) : w'.runsOf id = w.runsOf id ++ if x.1.id = id then [x] else [] := by
  simp only [runsOf, h, List.filter_append, List.filter_cons, List.filter_nil, beq_iff_eq]

/-- The tasks waiting in the queue: in line for a worker, or waiting for their retry time. -/
def waiting (w : Workers) : List QueueJob :=
  w.service.queue.queued ++ w.service.queue.retries.map (·.2)

/-- Every live task: waiting, or held by a worker. -/
def tasks (w : Workers) : List QueueJob :=
  w.waiting ++ w.held.map (·.1)

/-- The queue's bookkeeping agrees with the workers': the queue's running set is what the
workers hold, live tasks belong to distinct accepted jobs, and none is past the last attempt. -/
structure QueueSound (w : Workers) : Prop where
  running_perm : w.service.queue.running.Perm (w.held.map (·.1))
  nodup : (w.tasks.map (·.id)).Nodup
  accepted : ∀ t ∈ w.tasks, t.id ∈ w.service.accepted
  maxRetries_eq : w.service.queue.maxRetries = w.service.settings.queue.maxRetries.toNat
  not_stopped : w.service.queue.stopped = false
  attempt_le : ∀ t ∈ w.tasks, t.attempt ≤ w.service.queue.maxRetries

/-- A section that keeps the queue's tasks and what the workers hold keeps the queue sound. -/
theorem QueueSound.of_keeps (hq : w.QueueSound) (hk : w.service.KeepsTasks w'.service)
    (hheld : w'.held.map (·.1) = w.held.map (·.1)) : w'.QueueSound := by
  have htasks : w'.tasks = w.tasks := by
    simp only [tasks, waiting, JobQueue.queued, hk.queue.buffer, hk.queue.blocked, hk.queue.retries,
      hheld]
  refine ⟨?_, ?_, ?_, ?_, ?_, ?_⟩
  · rw [hk.queue.running, hheld]
    exact hq.running_perm
  · rw [htasks]
    exact hq.nodup
  · rw [htasks, hk.accepted]
    exact hq.accepted
  · rw [hk.queue.maxRetries, hk.settings]
    exact hq.maxRetries_eq
  · rw [hk.queue.stopped]
    exact hq.not_stopped
  · rw [htasks, hk.queue.maxRetries]
    exact hq.attempt_le

/-- A section that moves or drops tasks, or replaces one by a task of the same job, keeps the
queue sound once the running set still matches and no task is past the last attempt. -/
theorem QueueSound.of_ids (hq : w.QueueSound)
    (hrun : w'.service.queue.running.Perm (w'.held.map (·.1)))
    (hids : (w'.tasks.map (·.id)).Subperm (w.tasks.map (·.id)))
    (hattempt : ∀ t ∈ w'.tasks, t.attempt ≤ w'.service.queue.maxRetries)
    (hmax : w'.service.queue.maxRetries = w.service.queue.maxRetries)
    (hstop : w'.service.queue.stopped = w.service.queue.stopped)
    (hset : w'.service.settings = w.service.settings)
    (hacc : w'.service.accepted = w.service.accepted) : w'.QueueSound := by
  obtain ⟨ids, hperm, hsub⟩ := hids
  refine ⟨hrun, hperm.nodup_iff.1 (hq.nodup.sublist hsub), ?_, ?_, ?_, hattempt⟩
  · intro t ht
    obtain ⟨u, hu, hid⟩ := List.mem_map.1 (hsub.subset (hperm.symm.subset (List.mem_map_of_mem ht)))
    rw [hacc, ← hid]
    exact hq.accepted u hu
  · rw [hmax, hset]
    exact hq.maxRetries_eq
  · rw [hstop]
    exact hq.not_stopped

/-- Accepting a request keeps the queue sound: a task enters only under a new identifier. -/
theorem QueueSound.submit (hq : w.QueueSound) (r : SubmitRequest)
    (fresh : ∀ id s, w.service.accept r = (.ok id, s) → id ∉ w.service.accepted) :
    ({ w with service := (w.service.accept r).2 } : Workers).QueueSound := by
  rcases Service.accept_cases w.service r with ⟨storage, issued, hs⟩ | ⟨id, job, storage, issued, hid, -, -, -, -, hs⟩
  · refine hq.of_keeps ?_ rfl
    rw [hs]
    exact ⟨.refl _, rfl, rfl⟩
  · have hnew : id ∉ w.tasks.map (·.id) := by
      intro hmem
      obtain ⟨u, hu, hid'⟩ := List.mem_map.1 hmem
      exact fresh id _ (Prod.ext hid rfl) (hid' ▸ hq.accepted u hu)
    have htasks : ({ w with service := (w.service.accept r).2 } : Workers).tasks.Perm
        (⟨id, "timetable.generate", 0⟩ :: w.tasks) := by
      simp only [tasks, waiting, JobQueue.queued, hs, List.append_assoc, List.singleton_append]
      exact List.perm_middle
    refine ⟨?_, ?_, ?_, ?_, ?_, ?_⟩
    · rw [hs]
      exact hq.running_perm
    · rw [(htasks.map _).nodup_iff, List.map_cons, List.nodup_cons]
      exact ⟨hnew, hq.nodup⟩
    · intro t ht
      rw [hs, List.mem_append]
      rcases List.mem_cons.1 (htasks.subset ht) with rfl | ht
      · exact .inr (List.mem_singleton_self _)
      · exact .inl (hq.accepted t ht)
    · rw [hs]
      exact hq.maxRetries_eq
    · rw [hs]
      exact hq.not_stopped
    · intro t ht
      rw [hs]
      rcases List.mem_cons.1 (htasks.subset ht) with rfl | ht
      · exact Nat.zero_le _
      · exact hq.attempt_le t ht

/-- Taking a task moves it from the buffer to the workers. -/
theorem QueueSound.take (hq : w.QueueSound) {task : QueueJob} {q : JobQueue}
    (h : w.service.queue.next = (some task, q)) :
    ({ w with service := { w.service with queue := q }, held := w.held ++ [(task, .taken)] } :
      Workers).QueueSound := by
  obtain ⟨rest, dropped, hsuffix, rfl⟩ := JobQueue.next_eq_some h
  -- the task taken moves from the head of the line to the end of the held ones
  have hperm : ({ w with
      service := { w.service with queue := { w.service.queue.lineUp rest with
        dropped, running := w.service.queue.running ++ [task] } }
      held := w.held ++ [(task, .taken)] } : Workers).tasks.Perm
        (task :: (rest ++ w.service.queue.retries.map (·.2) ++ w.held.map (·.1))) := by
    simp only [tasks, waiting, JobQueue.queued, JobQueue.lineUp, List.take_append_drop,
      List.map_append, List.map_cons, List.map_nil, ← List.append_assoc]
    exact List.perm_append_singleton _ _
  have hsub : (task :: (rest ++ w.service.queue.retries.map (·.2) ++ w.held.map (·.1))).Sublist w.tasks :=
    ((hsuffix.sublist.append_right _).append_right _)
  refine hq.of_ids ?_ ((hperm.map _).subperm.trans (hsub.map _).subperm) ?_ rfl rfl rfl rfl
  · simp only [List.map_append, List.map_cons, List.map_nil]
    exact hq.running_perm.append_right _
  · intro t ht
    exact hq.attempt_le t (hsub.subset (hperm.subset ht))

/-- Releasing a task takes it out of the running set and puts at most its retry in its place. -/
theorem QueueSound.release (hq : w.QueueSound) {pre post : List (QueueJob × Phase)}
    {task : QueueJob} {answer : Except Fault Unit}
    (hheld : w.held = pre ++ (task, .returned answer) :: post) :
    ({ w with
      service := { w.service with queue := w.service.queue.finish task answer w.service.clock.millis }
      held := pre ++ post } : Workers).QueueSound := by
  have hheld' : w.held.map (·.1) = pre.map (·.1) ++ task :: post.map (·.1) := by simp [hheld]
  have hrun : (w.service.queue.running.erase task).Perm ((pre ++ post).map (·.1)) := by
    have hp := hq.running_perm
    rw [hheld'] at hp
    simpa using (hp.trans List.perm_middle).erase task
  have hleave : (w.waiting ++ (pre ++ post).map (·.1)).Sublist w.tasks := by
    rw [tasks, hheld', List.map_append]
    exact (List.sublist_cons_self task _).append_left _ |>.append_left _
  rcases JobQueue.finish_cases w.service.queue task answer w.service.clock.millis with
    hfin | ⟨f, -, -, hle, hfin⟩
  · -- no retry: the task leaves
    rw [hfin]
    exact hq.of_ids hrun (hleave.map _).subperm
      (fun t ht ↦ hq.attempt_le t (hleave.subset ht)) rfl rfl rfl rfl
  · -- a retry of the same job, one attempt later, takes the task's place
    rw [hfin]
    have hperm : List.Perm ((w.waiting ++ [{ task with attempt := task.attempt + 1 }] ++
        (pre ++ post).map (fun p : QueueJob × Phase ↦ p.1)).map (fun t : QueueJob ↦ t.id))
        (w.tasks.map (·.id)) := by
      simp only [tasks, hheld', List.map_append, List.map_cons, List.append_assoc,
        List.cons_append, List.nil_append]
      exact List.perm_middle.symm.append_left _
    have htasks : ({ w with
        service := { w.service with queue := { w.service.queue with
          running := w.service.queue.running.erase task
          retries := w.service.queue.retries ++
            [(w.service.clock.millis + w.service.queue.retryDelay, { task with attempt := task.attempt + 1 })] } }
        held := pre ++ post } : Workers).tasks =
          w.waiting ++ [{ task with attempt := task.attempt + 1 }] ++ (pre ++ post).map (·.1) := by
      simp [tasks, waiting, JobQueue.queued]
    refine hq.of_ids hrun (htasks ▸ hperm.subperm) ?_ rfl rfl rfl rfl
    intro t ht
    rw [htasks, List.mem_append, List.mem_append, List.mem_singleton] at ht
    rcases ht with (ht | rfl) | ht
    · exact hq.attempt_le t (hleave.subset (List.mem_append_left _ ht))
    · exact hle
    · exact hq.attempt_le t (hleave.subset (List.mem_append_right _ ht))

/-- Each section keeps the queue sound. -/
theorem QueueSound.step (hq : w.QueueSound) (h : Step w w') : w'.QueueSound := by
  cases h with
  | submit r fresh => exact hq.submit r fresh
  | @take task q h => exact hq.take h
  | idle h =>
    rcases JobQueue.next_eq_none h with rfl | ⟨dropped, rfl⟩
    · exact hq
    · -- only cancelled tasks were left in line, and they are dropped
      have hsub : (w.service.queue.retries.map (·.2) ++ w.held.map (·.1)).Sublist w.tasks :=
        ((List.sublist_append_right _ _).append_right _)
      refine hq.of_ids hq.running_perm ?_ ?_ rfl rfl rfl rfl
      · simpa [tasks, waiting, JobQueue.queued, JobQueue.lineUp] using (hsub.map (·.id)).subperm
      · intro t ht
        exact hq.attempt_le t (hsub.subset (by simpa [tasks, waiting, JobQueue.queued, JobQueue.lineUp] using ht))
  | @start pre post task job s hheld hb =>
    exact hq.of_keeps (Service.keepsTasks_beginRun hb) (by simp [hheld])
  | @pass pre post task s hheld hb =>
    exact hq.of_keeps (Service.keepsTasks_beginRun hb) (by simp [hheld])
  | @finish pre post task job s answer result hheld hjob hr =>
    exact hq.of_keeps (Service.keepsTasks_recordRun hr) (by simp [hheld])
  | @release pre post task answer hheld => exact hq.release hheld
  | fire =>
    have hperm : ({ w with service := { w.service with
        queue := w.service.queue.fire w.service.clock.millis } } : Workers).tasks.Perm w.tasks :=
      (JobQueue.fire_perm _ _).append_right _
    exact hq.of_ids hq.running_perm (hperm.map _).subperm
      (fun t ht ↦ hq.attempt_le t (hperm.subset ht)) rfl rfl rfl rfl
  | cancel id => exact hq.of_keeps (w.service.keepsTasks_cancel id) rfl
  | tick ht => exact hq.of_keeps ⟨.refl _, rfl, rfl⟩ rfl
  | look id => exact hq.of_keeps (w.service.keepsTasks_job? id) rfl

/-- No other live task shares the job of a held one. -/
theorem QueueSound.ne_of_held (hq : w.QueueSound) {pre post : List (QueueJob × Phase)}
    {task : QueueJob} {ph : Phase} (hheld : w.held = pre ++ (task, ph) :: post) :
    ∀ u ∈ w.waiting ++ (pre ++ post).map (·.1), u.id ≠ task.id := by
  have hnd := hq.nodup
  simp only [tasks, hheld, List.map_append, List.map_cons] at hnd
  rw [← List.append_assoc, List.perm_middle.nodup_iff, List.nodup_cons] at hnd
  intro u hu heq
  have hmem : u.id ∈ (w.waiting ++ (pre ++ post).map (·.1)).map (fun t : QueueJob ↦ t.id) :=
    List.mem_map_of_mem hu
  apply hnd.1
  rw [← heq]
  simpa only [List.map_append, List.append_assoc] using hmem

/-- After a section that changed the held entry of one task, a started handler is that entry,
or was started before on another job. -/
theorem QueueSound.started_cases (hq : w.QueueSound) {pre post : List (QueueJob × Phase)}
    {task t : QueueJob} {ph ph' : Phase} (hheld : w.held = pre ++ (task, ph) :: post)
    (ht : (t, Phase.started) ∈ pre ++ (task, ph') :: post) :
    (t = task ∧ ph' = .started) ∨ ((t, Phase.started) ∈ w.held ∧ t.id ≠ task.id) := by
  have hother : (t, Phase.started) ∈ pre ++ post → (t, Phase.started) ∈ w.held ∧ t.id ≠ task.id := by
    intro hmem
    refine ⟨?_, hq.ne_of_held hheld t (List.mem_append_right _ (List.mem_map_of_mem hmem))⟩
    rw [hheld]
    rcases List.mem_append.1 hmem with h | h
    · exact List.mem_append_left _ h
    · exact List.mem_append_right _ (List.mem_cons_of_mem _ h)
  rcases List.mem_append.1 ht with h | h
  · exact .inr (hother (List.mem_append_left _ h))
  · rcases List.mem_cons.1 h with h | h
    · obtain ⟨rfl, rfl⟩ := Prod.mk.inj h
      exact .inl ⟨rfl, rfl⟩
    · exact .inr (hother (List.mem_append_right _ h))

/-- The job store's records are consistent, their identifiers distinct and accepted, and the
job of a handler that started is there and has not ended. -/
structure JobsSound (w : Workers) : Prop where
  nodup : (w.service.jobs.map (·.id)).Nodup
  accepted : ∀ j ∈ w.service.jobs, j.id ∈ w.service.accepted
  consistent : ∀ j ∈ w.service.jobs, j.Consistent
  started : ∀ t, (t, Phase.started) ∈ w.held →
    ∃ j, w.service.jobs.find? (·.id == t.id) = some j ∧ j.terminal = false

/-- A section that keeps the store and starts no handler keeps the store sound. -/
theorem JobsSound.of_jobs (hj : w.JobsSound) (hjobs : w'.service.jobs = w.service.jobs)
    (hacc : w'.service.accepted = w.service.accepted)
    (hstarted : ∀ t, (t, Phase.started) ∈ w'.held → (t, Phase.started) ∈ w.held) : w'.JobsSound := by
  refine ⟨?_, ?_, ?_, ?_⟩
  · rw [hjobs]
    exact hj.nodup
  · rw [hjobs, hacc]
    exact hj.accepted
  · rw [hjobs]
    exact hj.consistent
  · intro t ht
    rw [hjobs]
    exact hj.started t (hstarted t ht)

/-- Replacing one job's record by a consistent one keeps the store sound, once each started
handler finds its job: the new record, not ended, or another job as before. -/
theorem JobsSound.of_putJob (hj : w.JobsSound) {job' : Job}
    (hjobs : w'.service.jobs = (w.service.putJob job').jobs)
    (hacc : w'.service.accepted = w.service.accepted)
    (hmem : job'.id ∈ w.service.jobs.map (·.id)) (hc : job'.Consistent)
    (hstarted : ∀ t, (t, Phase.started) ∈ w'.held →
      (t.id = job'.id ∧ job'.terminal = false) ∨ ((t, Phase.started) ∈ w.held ∧ t.id ≠ job'.id)) :
    w'.JobsSound := by
  refine ⟨?_, ?_, ?_, ?_⟩
  · rw [hjobs, Service.putJob_ids]
    exact hj.nodup
  · intro k hk
    rw [hjobs] at hk
    rw [hacc]
    rcases Service.mem_putJob hk with rfl | hk
    · obtain ⟨k', hk', hid⟩ := List.mem_map.1 hmem
      rw [← hid]
      exact hj.accepted k' hk'
    · exact hj.accepted k hk
  · intro k hk
    rw [hjobs] at hk
    rcases Service.mem_putJob hk with rfl | hk
    · exact hc
    · exact hj.consistent k hk
  · intro t ht
    rw [hjobs, Service.find?_putJob]
    rcases hstarted t ht with ⟨hid, hterm⟩ | ⟨ht, hne⟩
    · obtain ⟨k, hk, hkid⟩ := List.mem_map.1 hmem
      obtain ⟨j, hfind⟩ : ∃ j, w.service.jobs.find? (·.id == t.id) = some j := by
        rw [← Option.isSome_iff_exists, List.find?_isSome]
        exact ⟨k, hk, by simp [hkid, hid]⟩
      rw [if_pos hid.symm, hfind]
      exact ⟨job', rfl, hterm⟩
    · rw [if_neg (Ne.symm hne)]
      exact hj.started t ht

/-- A lookup keeps the store sound: it drops only a job that ended. -/
theorem JobsSound.of_job? (hj : w.JobsSound) {id : String}
    (hjobs : w'.service.jobs = (w.service.job? id).2.jobs)
    (hacc : w'.service.accepted = w.service.accepted)
    (hstarted : ∀ t, (t, Phase.started) ∈ w'.held → (t, Phase.started) ∈ w.held) : w'.JobsSound := by
  rcases Service.job?_cases w.service id with ⟨hs, -⟩ | ⟨j, hfind, hfin, -, hs⟩
  · rw [hs] at hjobs
    exact hj.of_jobs hjobs hacc hstarted
  · rw [hs] at hjobs
    have hterm : j.terminal = true := (hj.consistent j (List.mem_of_find?_eq_some hfind)).finished hfin
    refine ⟨?_, ?_, ?_, ?_⟩
    · rw [hjobs]
      exact hj.nodup.sublist ((List.filter_sublist).map _)
    · intro k hk
      rw [hjobs, List.mem_filter] at hk
      rw [hacc]
      exact hj.accepted k hk.1
    · intro k hk
      rw [hjobs, List.mem_filter] at hk
      exact hj.consistent k hk.1
    · -- the dropped job ended, so it is no started handler's
      intro t ht
      obtain ⟨k, hk, hkterm⟩ := hj.started t (hstarted t ht)
      rw [hjobs]
      dsimp only
      rw [Service.find?_filter_id]
      split
      · rename_i hid
        subst hid
        rw [hfind] at hk
        cases hk
        rw [hterm] at hkterm
        cases hkterm
      · exact ⟨k, hk, hkterm⟩

/-- A job just accepted is queued, with no result and no finishing time. -/
theorem consistent_of_queued {job : Job} (hstate : job.state = "queued") (hresult : job.result = none)
    (hfin : job.finishedAt = none) : job.Consistent :=
  ⟨by simp [hstate, hresult], by simp [hfin]⟩

/-- Accepting a request keeps the store sound: the job added is queued under a new identifier. -/
theorem JobsSound.submit (hj : w.JobsSound) (r : SubmitRequest)
    (fresh : ∀ id s, w.service.accept r = (.ok id, s) → id ∉ w.service.accepted) :
    ({ w with service := (w.service.accept r).2 } : Workers).JobsSound := by
  rcases Service.accept_cases w.service r with
    ⟨storage, issued, hs⟩ | ⟨id, job, storage, issued, hid, hjid, hstate, hresult, hfin, hs⟩
  · exact hj.of_jobs (by rw [hs]) (by rw [hs]) (fun _ h ↦ h)
  · have hnew : id ∉ w.service.jobs.map (·.id) := by
      intro hmem
      obtain ⟨k, hk, hkid⟩ := List.mem_map.1 hmem
      exact fresh id _ (Prod.ext hid rfl) (hkid ▸ hj.accepted k hk)
    refine ⟨?_, ?_, ?_, ?_⟩
    · rw [hs, List.map_append, List.map_cons, List.map_nil,
        (List.perm_append_singleton _ _).nodup_iff, List.nodup_cons]
      exact ⟨hjid ▸ hnew, hj.nodup⟩
    · intro k hk
      rw [hs, List.mem_append, List.mem_singleton] at hk ⊢
      rcases hk with hk | rfl
      · exact .inl (hj.accepted k hk)
      · exact .inr hjid
    · intro k hk
      rw [hs, List.mem_append, List.mem_singleton] at hk
      rcases hk with hk | rfl
      · exact hj.consistent k hk
      · exact consistent_of_queued hstate hresult hfin
    · intro t ht
      obtain ⟨k, hk, hterm⟩ := hj.started t ht
      rw [hs]
      exact ⟨k, by rw [List.find?_append, hk, Option.some_or], hterm⟩

/-- A handler that starts marks a job running that has not ended. -/
theorem JobsSound.start (hj : w.JobsSound) (hq : w.QueueSound) {pre post : List (QueueJob × Phase)}
    {task : QueueJob} {job : Job} {s : Service} (hheld : w.held = pre ++ (task, .taken) :: post)
    (hb : w.service.beginRun task = (some job, s)) :
    ({ w with service := s, held := pre ++ (task, .started) :: post } : Workers).JobsSound := by
  obtain ⟨hfind, hterm, rfl⟩ := Service.beginRun_eq_some hb
  have hc := hj.consistent job (List.mem_of_find?_eq_some hfind)
  have hpending := hc.pending hterm
  have hid : job.id = task.id := by simpa using List.find?_some hfind
  have hmem : job.id ∈ w.service.jobs.map (·.id) := List.mem_map_of_mem (List.mem_of_find?_eq_some hfind)
  refine hj.of_putJob rfl rfl hmem ⟨by simp [hpending.1], by simp [hpending.2]⟩ fun t ht ↦ ?_
  rcases hq.started_cases hheld ht with ⟨rfl, -⟩ | ⟨ht, hne⟩
  · exact .inl ⟨hid.symm, rfl⟩
  · exact .inr ⟨ht, hid ▸ hne⟩

/-- Recording how a run ended gives its job a consistent record. -/
theorem JobsSound.finish (hj : w.JobsSound) (hq : w.QueueSound) {pre post : List (QueueJob × Phase)}
    {task : QueueJob} {job : Job} {s : Service} {answer : Except Fault Unit}
    (result : Except RunFailure RunResult) (hheld : w.held = pre ++ (task, .started) :: post)
    (hjob : w.service.jobs.find? (·.id == task.id) = some job)
    (hr : w.service.recordRun job task.attempt result = (s, answer)) :
    ({ w with
      service := s
      held := pre ++ (task, .returned answer) :: post
      runs := w.runs ++ [(task, result)] } : Workers).JobsSound := by
  -- the job recorded is the one its handler started, so it has not ended
  obtain ⟨j, hfind, hterm⟩ := hj.started task (by rw [hheld]; simp)
  rw [hjob, Option.some.injEq] at hfind
  subst hfind
  have hpending := (hj.consistent job (List.mem_of_find?_eq_some hjob)).pending hterm
  have hid : job.id = task.id := by simpa using List.find?_some hjob
  obtain ⟨job', heq, hid', hcases⟩ := Service.recordRun_cases w.service job task.attempt result
  rw [hr] at heq hcases
  have hc : job'.Consistent := by
    rcases hcases with ⟨r, -, hstate, hresult, hfin, -⟩ | ⟨-, hstate, hresult, hfin, -⟩ |
      ⟨-, hstate, hresult, hfin, -⟩
    · exact ⟨by simp [hstate, hresult], fun _ ↦ by simp [Job.terminal, hstate]⟩
    · exact consistent_of_queued hstate (hresult.trans hpending.1) (hfin.trans hpending.2)
    · refine ⟨?_, fun _ ↦ ?_⟩
      · rcases hstate with hstate | hstate <;> simp [hresult, hpending.1, hstate]
      · rcases hstate with hstate | hstate <;> simp [Job.terminal, hstate]
  obtain ⟨hjobs, hacc⟩ := Service.jobs_of_metrics_eq heq
  have hmem : job.id ∈ w.service.jobs.map (·.id) := List.mem_map_of_mem (List.mem_of_find?_eq_some hjob)
  refine hj.of_putJob hjobs hacc (hid' ▸ hmem) hc fun t ht ↦ ?_
  rcases hq.started_cases hheld ht with ⟨-, h⟩ | ⟨ht, hne⟩
  · cases h
  · exact .inr ⟨ht, by rw [hid', hid]; exact hne⟩

/-- A cancel keeps the store sound: it ends only a queued job that no handler holds. -/
theorem JobsSound.cancel (hj : w.JobsSound) (hq : w.QueueSound) (id : String) :
    ({ w with service := (w.service.cancel id).2 } : Workers).JobsSound := by
  rcases Service.cancel_cases w.service id with ⟨hs, -⟩ | ⟨j, hfind, hterm, hcase⟩
  · exact hj.of_job? (by rw [hs]) (by rw [hs, (w.service.keepsTasks_job? id).accepted])
      fun _ h ↦ h
  · have hc := hj.consistent j (List.mem_of_find?_eq_some hfind)
    have hjid : j.id = id := by simpa using List.find?_some hfind
    have hmem : j.id ∈ w.service.jobs.map (·.id) := List.mem_map_of_mem (List.mem_of_find?_eq_some hfind)
    rcases hcase with ⟨-, hs⟩ | ⟨hrun, -, job', heq, hid, hstate, hresult, hfin⟩ | ⟨-, -, hs⟩
    · -- a job with a running task is only asked to stop
      refine @JobsSound.of_putJob w _ hj { j with stopped := true } (by rw [hs]) (by rw [hs]; rfl) hmem
        ⟨hc.result_iff, hc.finished⟩ fun t ht ↦ ?_
      by_cases htid : t.id = j.id
      · exact .inl ⟨htid, hterm⟩
      · exact .inr ⟨ht, htid⟩
    · -- a queued job none of whose tasks runs ends as cancelled, and no handler holds it
      have hpending := hc.pending hterm
      obtain ⟨hjobs, hacc⟩ := Service.jobs_of_metrics_eq heq
      refine hj.of_putJob hjobs hacc (hid ▸ hmem)
        ⟨by simp [hresult, hpending.1, hstate], fun _ ↦ by simp [Job.terminal, hstate]⟩
        fun t ht ↦ .inr ⟨ht, fun htid ↦ ?_⟩
      have hin : t ∈ w.service.queue.running :=
        hq.running_perm.symm.subset (List.mem_map_of_mem ht)
      have hany : w.service.queue.running.any (·.id == id) = true :=
        List.any_eq_true.2 ⟨t, hin, by simp [htid, hid, hjid]⟩
      rw [hrun] at hany
      cases hany
    · exact hj.of_jobs (by rw [hs]) (by rw [hs]) fun _ h ↦ h

/-- Each section keeps the job store sound. -/
theorem JobsSound.step (hj : w.JobsSound) (hq : w.QueueSound) (h : Step w w') : w'.JobsSound := by
  cases h with
  | submit r fresh => exact hj.submit r fresh
  | @take task q h =>
    refine hj.of_jobs rfl rfl fun t ht ↦ ?_
    rcases List.mem_append.1 ht with ht | ht
    · exact ht
    · simp at ht
  | idle h => exact hj.of_jobs rfl rfl fun _ h ↦ h
  | @start pre post task job s hheld hb => exact hj.start hq hheld hb
  | @pass pre post task s hheld hb =>
    have hs := Service.beginRun_eq_none hb
    subst hs
    refine hj.of_job? rfl (w.service.keepsTasks_job? task.id).accepted fun t ht ↦ ?_
    rcases hq.started_cases hheld ht with ⟨-, h⟩ | ⟨ht, -⟩
    · cases h
    · exact ht
  | @finish pre post task job s answer result hheld hjob hr => exact hj.finish hq result hheld hjob hr
  | @release pre post task answer hheld =>
    refine hj.of_jobs rfl rfl fun t ht ↦ ?_
    rw [hheld]
    rcases List.mem_append.1 ht with ht | ht
    · exact List.mem_append_left _ ht
    · exact List.mem_append_right _ (List.mem_cons_of_mem _ ht)
  | fire => exact hj.of_jobs rfl rfl fun _ h ↦ h
  | cancel id => exact hj.cancel hq id
  | tick ht => exact hj.of_jobs rfl rfl fun _ h ↦ h
  | look id => exact hj.of_job? rfl (w.service.keepsTasks_job? id).accepted fun _ h ↦ h

/-- The runs so far: each job's runs are its attempts in order, none past the last attempt,
every one but the last a run the service retries, and they account for every live task. -/
structure RunsSound (w : Workers) : Prop where
  accepted : ∀ r ∈ w.runs, r.1.id ∈ w.service.accepted
  attempt_le : ∀ r ∈ w.runs, r.1.attempt ≤ w.service.queue.maxRetries
  attempts : ∀ id, (w.runsOf id).map (·.1.attempt) = List.range (w.runsOf id).length
  retried : ∀ id, ∀ r ∈ (w.runsOf id).dropLast, w.service.settings.retryable r.1.attempt r.2
  waiting : ∀ t ∈ w.waiting, Phase.taken.Tallies w.service.settings (w.runsOf t.id) t.attempt
  held : ∀ p ∈ w.held, p.2.Tallies w.service.settings (w.runsOf p.1.id) p.1.attempt

/-- A section that records no run keeps the runs sound once every live task is accounted for
by the runs as they were. -/
theorem RunsSound.of_runs (hr : w.RunsSound) (hruns : w'.runs = w.runs)
    (hset : w'.service.settings = w.service.settings)
    (hmax : w'.service.queue.maxRetries = w.service.queue.maxRetries)
    (hacc : ∀ id ∈ w.service.accepted, id ∈ w'.service.accepted)
    (hwait : ∀ t ∈ w'.waiting, Phase.taken.Tallies w.service.settings (w.runsOf t.id) t.attempt)
    (hheld : ∀ p ∈ w'.held, p.2.Tallies w.service.settings (w.runsOf p.1.id) p.1.attempt) :
    w'.RunsSound := by
  have hof := runsOf_congr hruns
  refine ⟨?_, ?_, ?_, ?_, ?_, ?_⟩
  · intro r hmem
    rw [hruns] at hmem
    exact hacc _ (hr.accepted r hmem)
  · rw [hruns, hmax]
    exact hr.attempt_le
  · rw [hof]
    exact hr.attempts
  · rw [hof, hset]
    exact hr.retried
  · rw [hof, hset]
    exact hwait
  · rw [hof, hset]
    exact hheld

/-- A section that records no run and keeps the queue's tasks keeps the runs sound once the
held tasks are accounted for. -/
theorem RunsSound.of_keeps (hr : w.RunsSound) (hk : w.service.KeepsTasks w'.service)
    (hruns : w'.runs = w.runs)
    (hheld : ∀ p ∈ w'.held, p.2.Tallies w.service.settings (w.runsOf p.1.id) p.1.attempt) :
    w'.RunsSound := by
  have hwait : w'.waiting = w.waiting := by
    simp only [Workers.waiting, JobQueue.queued, hk.queue.buffer, hk.queue.blocked, hk.queue.retries]
  refine hr.of_runs hruns hk.settings hk.queue.maxRetries (fun _ h ↦ hk.accepted ▸ h) ?_ hheld
  rw [hwait]
  exact hr.waiting

/-- An entry of a held list with one entry replaced. -/
theorem mem_replaced {pre post : List (QueueJob × Phase)} {x p : QueueJob × Phase}
    (h : p ∈ pre ++ x :: post) : p = x ∨ p ∈ pre ++ post := by
  rcases List.mem_append.1 h with h | h
  · exact .inr (List.mem_append_left _ h)
  · rcases List.mem_cons.1 h with h | h
    · exact .inl h
    · exact .inr (List.mem_append_right _ h)

theorem mem_of_mem_removed {pre post : List (QueueJob × Phase)} {x p : QueueJob × Phase}
    (h : p ∈ pre ++ post) : p ∈ pre ++ x :: post := by
  rcases List.mem_append.1 h with h | h
  · exact List.mem_append_left _ h
  · exact List.mem_append_right _ (List.mem_cons_of_mem _ h)

/-- Recording how a started task's run ended keeps the runs sound, once a failure the handler
hands the queue to retry comes from a run the service retries. -/
theorem RunsSound.of_record (hr : w.RunsSound) (hq : w.QueueSound) {pre post : List (QueueJob × Phase)}
    {task : QueueJob} {answer : Except Fault Unit} {result : Except RunFailure RunResult}
    (hheld : w.held = pre ++ (task, .started) :: post)
    (hheld' : w'.held = pre ++ (task, .returned answer) :: post)
    (hruns : w'.runs = w.runs ++ [(task, result)]) (hk : w.service.KeepsTasks w'.service)
    (hretry : ∀ f, answer = .error f → f.isPermanent = false →
      w.service.settings.retryable task.attempt result) : w'.RunsSound := by
  obtain ⟨hlen, hall⟩ : (w.runsOf task.id).length = task.attempt ∧
      ∀ r ∈ w.runsOf task.id, w.service.settings.retryable r.1.attempt r.2 :=
    hr.held (task, .started) (by rw [hheld]; simp)
  have htask : task ∈ w.tasks := by
    rw [tasks, hheld]
    simp
  have hne := hq.ne_of_held hheld
  have hmine : w'.runsOf task.id = w.runsOf task.id ++ [(task, result)] := by
    rw [runsOf_append hruns, if_pos rfl]
  have hother : ∀ id, id ≠ task.id → w'.runsOf id = w.runsOf id := by
    intro id hid
    rw [runsOf_append hruns, if_neg (Ne.symm hid), List.append_nil]
  have hwait : w'.waiting = w.waiting := by
    simp only [Workers.waiting, JobQueue.queued, hk.queue.buffer, hk.queue.blocked, hk.queue.retries]
  refine ⟨?_, ?_, ?_, ?_, ?_, ?_⟩
  · intro r hmem
    rw [hruns, List.mem_append, List.mem_singleton] at hmem
    rw [hk.accepted]
    rcases hmem with hmem | rfl
    · exact hr.accepted r hmem
    · exact hq.accepted task htask
  · intro r hmem
    rw [hruns, List.mem_append, List.mem_singleton] at hmem
    rw [hk.queue.maxRetries]
    rcases hmem with hmem | rfl
    · exact hr.attempt_le r hmem
    · exact hq.attempt_le task htask
  · intro id
    by_cases hid : id = task.id
    · subst hid
      rw [hmine, List.map_append, hr.attempts, List.length_append, hlen]
      simp [List.range_succ]
    · rw [hother id hid]
      exact hr.attempts id
  · intro id r hmem
    rw [hk.settings]
    by_cases hid : id = task.id
    · subst hid
      rw [hmine, List.dropLast_concat] at hmem
      exact hall r hmem
    · rw [hother id hid] at hmem
      exact hr.retried id r hmem
  · intro t ht
    rw [hwait] at ht
    rw [hother t.id (hne t (List.mem_append_left _ ht)), hk.settings]
    exact hr.waiting t ht
  · intro p hp
    rw [hheld'] at hp
    rw [hk.settings]
    rcases mem_replaced hp with rfl | hp
    · refine .inr ⟨by rw [hmine, List.length_append, hlen]; rfl, fun f hf hperm r hmem ↦ ?_⟩
      rw [hmine, List.mem_append, List.mem_singleton] at hmem
      rcases hmem with hmem | rfl
      · exact hall r hmem
      · exact hretry f hf hperm
    · rw [hother p.1.id (hne p.1 (List.mem_append_right _ (List.mem_map_of_mem hp)))]
      exact hr.held p (hheld ▸ mem_of_mem_removed hp)

/-- Accepting a request keeps the runs sound: the new job has no run yet. -/
theorem RunsSound.submit (hr : w.RunsSound) (r : SubmitRequest)
    (fresh : ∀ id s, w.service.accept r = (.ok id, s) → id ∉ w.service.accepted) :
    ({ w with service := (w.service.accept r).2 } : Workers).RunsSound := by
  rcases Service.accept_cases w.service r with
    ⟨storage, issued, hs⟩ | ⟨id, job, storage, issued, hid, -, -, -, -, hs⟩
  · exact hr.of_keeps (by rw [hs]; exact ⟨.refl _, rfl, rfl⟩) rfl hr.held
  · have hnone : w.runsOf id = [] := by
      rw [runsOf, List.filter_eq_nil_iff]
      intro x hx hxid
      exact fresh id _ (Prod.ext hid rfl) (by simpa using (beq_iff_eq.1 hxid) ▸ hr.accepted x hx)
    have hw : ({ w with service := (w.service.accept r).2 } : Workers).waiting =
        w.service.queue.buffer ++ [⟨id, "timetable.generate", 0⟩] ++
          (w.service.queue.blocked ++ w.service.queue.retries.map (·.2)) := by
      rw [Workers.waiting, hs]
      simp [JobQueue.queued]
    refine hr.of_runs rfl (by rw [hs]) (by rw [hs]) (fun _ h ↦ by rw [hs]; exact List.mem_append_left _ h)
      (fun t ht ↦ ?_) hr.held
    rw [hw, List.mem_append, List.mem_append, List.mem_singleton] at ht
    rcases ht with (ht | rfl) | ht
    · exact hr.waiting t (by simp [Workers.waiting, JobQueue.queued, ht])
    · simp [Phase.Tallies, hnone]
    · exact hr.waiting t (by simp [Workers.waiting, JobQueue.queued] at ht ⊢; tauto)

/-- Taking a task keeps the runs sound. -/
theorem RunsSound.take (hr : w.RunsSound) {task : QueueJob} {q : JobQueue}
    (h : w.service.queue.next = (some task, q)) :
    ({ w with service := { w.service with queue := q }, held := w.held ++ [(task, .taken)] } :
      Workers).RunsSound := by
  obtain ⟨rest, dropped, hsuffix, rfl⟩ := JobQueue.next_eq_some h
  have hwait : ∀ t ∈ task :: rest ++ w.service.queue.retries.map (·.2), t ∈ w.waiting :=
    fun t ht ↦ ((hsuffix.sublist.append_right _).subset ht)
  refine hr.of_runs rfl rfl rfl (fun _ h ↦ h) (fun t ht ↦ hr.waiting t (hwait t (List.mem_cons_of_mem _
    (by simpa [Workers.waiting, JobQueue.queued, JobQueue.lineUp] using ht)))) ?_
  intro p hp
  rcases List.mem_append.1 hp with hp | hp
  · exact hr.held p hp
  · rw [List.mem_singleton] at hp
    subst hp
    exact hr.waiting task (hwait task List.mem_cons_self)

/-- Releasing a task keeps the runs sound: a retry follows a run the service retries. -/
theorem RunsSound.release (hr : w.RunsSound) {pre post : List (QueueJob × Phase)}
    {task : QueueJob} {answer : Except Fault Unit}
    (hheld : w.held = pre ++ (task, .returned answer) :: post) :
    ({ w with
      service := { w.service with queue := w.service.queue.finish task answer w.service.clock.millis }
      held := pre ++ post } : Workers).RunsSound := by
  have hprev := hr.held (task, .returned answer) (by rw [hheld]; simp)
  rcases JobQueue.finish_cases w.service.queue task answer w.service.clock.millis with
    hfin | ⟨f, hans, hperm, -, hfin⟩
  · rw [hfin]
    refine hr.of_runs rfl rfl rfl (fun _ h ↦ h) hr.waiting fun p hp ↦ ?_
    exact hr.held p (hheld ▸ mem_of_mem_removed hp)
  · rw [hfin]
    refine hr.of_runs rfl rfl rfl (fun _ h ↦ h) (fun t ht ↦ ?_) fun p hp ↦ ?_
    · have hw : t ∈ w.waiting ++ [{ task with attempt := task.attempt + 1 }] := by
        simpa [Workers.waiting, JobQueue.queued] using ht
      rcases List.mem_append.1 hw with ht | ht
      · exact hr.waiting t ht
      · rw [List.mem_singleton] at ht
        subst ht
        rcases hprev with ⟨hok, -⟩ | ⟨hlen, hall⟩
        · rw [hans] at hok
          cases hok
        · exact ⟨hlen, hall f hans hperm⟩
    · exact hr.held p (hheld ▸ mem_of_mem_removed hp)

/-- Each section keeps the runs sound. -/
theorem RunsSound.step (hr : w.RunsSound) (hq : w.QueueSound) (h : Step w w') : w'.RunsSound := by
  cases h with
  | submit r fresh => exact hr.submit r fresh
  | @take task q h => exact hr.take h
  | idle h =>
    rcases JobQueue.next_eq_none h with rfl | ⟨dropped, rfl⟩
    · exact hr
    · refine hr.of_runs rfl rfl rfl (fun _ h ↦ h) (fun t ht ↦ hr.waiting t ?_) hr.held
      simp only [Workers.waiting, JobQueue.queued, JobQueue.lineUp, List.take_nil, List.drop_nil,
        List.nil_append] at ht ⊢
      exact List.mem_append_right _ ht
  | @start pre post task job s hheld hb =>
    refine hr.of_keeps (Service.keepsTasks_beginRun hb) rfl fun p hp ↦ ?_
    rcases mem_replaced hp with rfl | hp
    · exact hr.held (task, .taken) (by rw [hheld]; simp)
    · exact hr.held p (hheld ▸ mem_of_mem_removed hp)
  | @pass pre post task s hheld hb =>
    refine hr.of_keeps (Service.keepsTasks_beginRun hb) rfl fun p hp ↦ ?_
    rcases mem_replaced hp with rfl | hp
    · exact .inl ⟨rfl, hr.held (task, .taken) (by rw [hheld]; simp)⟩
    · exact hr.held p (hheld ▸ mem_of_mem_removed hp)
  | @finish pre post task job s answer result hheld hjob hrec =>
    exact hr.of_record hq hheld rfl rfl (Service.keepsTasks_recordRun hrec)
      fun _ hf hperm ↦ Service.retryable_of_recordRun hrec hf hperm
  | @release pre post task answer hheld => exact hr.release hheld
  | fire =>
    have hperm := JobQueue.fire_perm w.service.queue w.service.clock.millis
    exact hr.of_runs rfl rfl rfl (fun _ h ↦ h) (fun t ht ↦ hr.waiting t (hperm.subset ht)) hr.held
  | cancel id => exact hr.of_keeps (w.service.keepsTasks_cancel id) rfl hr.held
  | tick ht => exact hr.of_keeps ⟨.refl _, rfl, rfl⟩ rfl hr.held
  | look id => exact hr.of_keeps (w.service.keepsTasks_job? id) rfl hr.held

end Workers

end Timetabling
