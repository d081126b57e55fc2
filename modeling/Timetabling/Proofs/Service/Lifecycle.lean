import Timetabling.Proofs.Service.Invariants
import Timetabling.Proofs.Pipeline.Steps
import Timetabling.Proofs.Search.Domain
import Mathlib.Logic.Relation

/-! # The life of a job under concurrent workers

Every state reachable from a new service satisfies the three invariants (`Reachable.sound`).
From them: a job that ended is never changed again along any run of sections
(`Sound.holdsAtMost_star`); each job runs at most once more than the retries allow
(`Sound.runs_length_le`, `Sound.started_runs_le`); and a job's result is there exactly when it
completed. `job_lifecycle_safe` collects these with the agreement of the service's retry
decision and the queue's.

A cancel is not always heard: one that lands after a handler handed back a failure the queue
retries, but before the queue took the task out of its running set, only flags the job, and
the next attempt is scheduled all the same (`Sound.cancel_in_retry_window`). -/

namespace Timetabling

namespace Workers

variable {w w' : Workers}

/-- Each section keeps the buffer within its capacity. -/
theorem lined_step (hl : w.service.queue.Lined) (h : Step w w') : w'.service.queue.Lined := by
  cases h with
  | submit r fresh =>
    rcases Service.accept_queue w.service r with hq | ⟨task, hq⟩
    · exact hq ▸ hl
    · exact hl.tryEnqueue hq
  | take h | idle h => exact hl.next h
  | start _ hb | pass _ hb => exact hl.sameTasks (Service.keepsTasks_beginRun hb).queue
  | finish _ _ _ hr => exact hl.sameTasks (Service.keepsTasks_recordRun hr).queue
  | release _ => exact hl.finish _ _ _
  | fire => exact JobQueue.lined_fire _ _
  | cancel id => exact hl.sameTasks (w.service.keepsTasks_cancel id).queue
  | tick _ => exact hl
  | look id => exact hl.sameTasks (w.service.keepsTasks_job? id).queue

/-- The three invariants together, with the buffer within its capacity. -/
structure Sound (w : Workers) : Prop where
  queue : w.QueueSound
  jobs : w.JobsSound
  runs : w.RunsSound
  lined : w.service.queue.Lined

theorem Sound.step (hs : w.Sound) (h : Step w w') : w'.Sound :=
  ⟨hs.queue.step h, hs.jobs.step hs.queue h, hs.runs.step hs.queue h, lined_step hs.lined h⟩

/-- A service just created has no job, no task and no run. -/
theorem sound_create (settings : ServiceSettings) (cache : ResultCache) (source : RecordSource)
    (storage : Storage) (probe : Option MemoryProbe) (gate : Gate) (clock : Instant) (issued : Nat) :
    ({ service := Service.create settings cache source storage probe gate clock issued } : Workers).Sound := by
  obtain ⟨q, hq, hbuf, hblk, hret, hrun, hmax, hstop⟩ : ∃ q : JobQueue,
      (Service.create settings cache source storage probe gate clock issued).queue = q ∧ q.buffer = [] ∧
        q.blocked = [] ∧ q.retries = [] ∧ q.running = [] ∧
        q.maxRetries = settings.queue.maxRetries.toNat ∧ q.stopped = false := by
    unfold Service.create
    dsimp only
    split
    · exact ⟨_, rfl, rfl, rfl, rfl, rfl, rfl, rfl⟩
    · exact ⟨_, rfl, rfl, rfl, rfl, rfl, rfl, rfl⟩
  have hjobs : (Service.create settings cache source storage probe gate clock issued).jobs = [] := rfl
  have hset : (Service.create settings cache source storage probe gate clock issued).settings = settings := rfl
  refine ⟨⟨?_, ?_, ?_, ?_, ?_, ?_⟩, ⟨?_, ?_, ?_, ?_⟩, ⟨?_, ?_, ?_, ?_, ?_, ?_⟩, ⟨?_, ?_⟩⟩
  all_goals simp [tasks, Workers.waiting, JobQueue.queued, runsOf, hq, hbuf, hblk, hret, hrun, hmax,
    hstop, hjobs, hset]

theorem Reachable.sound (hw : w.Reachable) : w.Sound := by
  induction hw with
  | create settings cache source storage probe gate clock issued =>
    exact sound_create settings cache source storage probe gate clock issued
  | step _ h ih => exact ih.step h

/-- The invariants hold along every run of sections from a state that satisfies them. -/
theorem Sound.star (hs : w.Sound) (h : Relation.ReflTransGen Step w w') : w'.Sound := by
  induction h with
  | refl => exact hs
  | tail _ h ih => exact ih.step h

/-- The identifiers accepted only grow. -/
theorem Step.accepted_subset (h : Step w w') : ∀ id ∈ w.service.accepted, id ∈ w'.service.accepted := by
  intro id hid
  cases h with
  | submit r fresh =>
    rcases Service.accept_cases w.service r with ⟨storage, issued, hs⟩ | ⟨x, job, storage, issued, -, -, -, -, -, hs⟩
    · rw [hs]
      exact hid
    · rw [hs]
      exact List.mem_append_left _ hid
  | @start pre post task job s hheld hb =>
    exact (Service.keepsTasks_beginRun hb).accepted ▸ hid
  | @pass pre post task s hheld hb =>
    exact (Service.keepsTasks_beginRun hb).accepted ▸ hid
  | @finish pre post task job s answer result hheld hjob hrec =>
    exact (Service.keepsTasks_recordRun hrec).accepted ▸ hid
  | cancel x => exact (w.service.keepsTasks_cancel x).accepted ▸ hid
  | look x => exact (w.service.keepsTasks_job? x).accepted ▸ hid
  | take h | idle h | release h | fire | tick h => exact hid

/-- A section leaves the record of a job that ended as it is, or drops it; a job dropped never
comes back, since identifiers are not accepted twice. -/
theorem Sound.holdsAtMost_step (hs : w.Sound) (h : Step w w') {id : String} {j : Job}
    (hterm : j.terminal = true) (hacc : id ∈ w.service.accepted) (hold : w.service.HoldsAtMost id j) :
    w'.service.HoldsAtMost id j := by
  cases h with
  | submit r fresh =>
    rcases Service.accept_cases w.service r with
      ⟨storage, issued, hs'⟩ | ⟨x, job, storage, issued, hx, hjid, -, -, -, hs'⟩
    · rw [hs']
      exact hold
    · have hne : x ≠ id := fun hxid ↦ fresh x _ (Prod.ext hx rfl) (hxid ▸ hacc)
      unfold Service.HoldsAtMost
      rw [hs']
      dsimp only
      rw [List.find?_append]
      rcases hold with hold | hold
      · rw [hold]
        exact .inl rfl
      · rw [hold, Option.none_or]
        right
        simp [hjid, hne]
  | @start pre post task job s hheld hb =>
    obtain ⟨hfind, hjterm, rfl⟩ := Service.beginRun_eq_some hb
    have hid : job.id = task.id := by simpa using List.find?_some hfind
    exact hold.putJob hterm (hid ▸ hfind) hjterm
  | @pass pre post task s hheld hb =>
    rw [Service.beginRun_eq_none hb]
    exact hold.job? task.id
  | @finish pre post task job s answer result hheld hjob hrec =>
    obtain ⟨k, hk, hkterm⟩ := hs.jobs.started task (by rw [hheld]; simp)
    obtain ⟨job', heq, hid', -⟩ := Service.recordRun_cases w.service job task.attempt result
    rw [hrec] at heq
    obtain ⟨hjobs, -⟩ := Service.jobs_of_metrics_eq heq
    have hid : job.id = task.id := by simpa using List.find?_some hjob
    unfold Service.HoldsAtMost
    rw [hjobs]
    exact hold.putJob hterm (by rw [hid', hid]; exact hk) hkterm
  | cancel x =>
    rcases Service.cancel_cases w.service x with ⟨hs', -⟩ | ⟨k, hk, hkterm, hcase⟩
    · rw [hs']
      exact hold.job? x
    · have hkid : k.id = x := by simpa using List.find?_some hk
      rcases hcase with ⟨-, hs'⟩ | ⟨-, -, job', heq, hid', -⟩ | ⟨-, -, hs'⟩
      · rw [hs']
        exact hold.putJob (k := k) hterm (by rw [← hkid] at hk; exact hk) hkterm
      · obtain ⟨hjobs, -⟩ := Service.jobs_of_metrics_eq heq
        unfold Service.HoldsAtMost
        rw [hjobs]
        exact hold.putJob hterm (by rw [hid', hkid]; exact hk) hkterm
      · rw [hs']
        exact hold
  | look x => exact hold.job? x
  | take h | idle h | release h | fire | tick h => exact hold

/-- Along any run of sections, a job that ended stays as it ended until it is dropped. -/
theorem Sound.holdsAtMost_star (hs : w.Sound) (h : Relation.ReflTransGen Step w w') {id : String}
    {j : Job} (hfind : w.service.jobs.find? (·.id == id) = some j) (hterm : j.terminal = true) :
    w'.service.HoldsAtMost id j := by
  have hacc : id ∈ w.service.accepted := by
    have hid : j.id = id := by simpa using List.find?_some hfind
    exact hid ▸ hs.jobs.accepted j (List.mem_of_find?_eq_some hfind)
  -- the identifier's acceptance travels along with the record
  have key : id ∈ w'.service.accepted ∧ w'.service.HoldsAtMost id j := by
    induction h with
    | refl => exact ⟨hacc, .inl hfind⟩
    | tail hprev hstep ih =>
      obtain ⟨hacc₁, hold₁⟩ := ih
      exact ⟨hstep.accepted_subset id hacc₁, (hs.star hprev).holdsAtMost_step hstep hterm hacc₁ hold₁⟩
  exact key.2

/-- Each job runs at most once more than the retries allow. -/
theorem Sound.runs_length_le (hs : w.Sound) (id : String) :
    ((w.runsOf id).length : Int) ≤ max w.service.settings.queue.maxRetries 0 + 1 := by
  cases hlen : (w.runsOf id).length with
  | zero => omega
  | succ n =>
    -- the last run is attempt n, which the queue only schedules within its retries
    have hmem : n ∈ (w.runsOf id).map (·.1.attempt) := by
      rw [hs.runs.attempts id, hlen]
      exact List.mem_range.2 (Nat.lt_succ_self n)
    obtain ⟨r, hr, hrn⟩ := List.mem_map.1 hmem
    have hle := hs.runs.attempt_le r (List.mem_of_mem_filter hr)
    rw [hs.queue.maxRetries_eq, hrn] at hle
    have := Int.ofNat_toNat w.service.settings.queue.maxRetries
    omega

/-- A task whose handler started runs within the retries too. -/
theorem Sound.started_runs_le (hs : w.Sound) {t : QueueJob} (ht : (t, Phase.started) ∈ w.held) :
    ((w.runsOf t.id).length : Int) + 1 ≤ max w.service.settings.queue.maxRetries 0 + 1 := by
  obtain ⟨hlen, -⟩ : (w.runsOf t.id).length = t.attempt ∧ _ := hs.runs.held (t, .started) ht
  have hle := hs.queue.attempt_le t (List.mem_append_right _ (List.mem_map_of_mem ht))
  rw [hs.queue.maxRetries_eq] at hle
  have := Int.ofNat_toNat w.service.settings.queue.maxRetries
  omega

/-- A cancel that lands after a handler handed back a failure the queue retries, but before
the queue took the task out of its running set, is answered without error and yet stops
nothing: it only flags the job, which stays queued and not ended, the queue marks nothing to
drop, and taking the task back schedules the job's next attempt. -/
theorem Sound.cancel_in_retry_window (hs : w.Sound) {pre post : List (QueueJob × Phase)}
    {task : QueueJob} {f : Fault} {j : Job} (hheld : w.held = pre ++ (task, .returned (.error f)) :: post)
    (hf : f.isPermanent = false) (hle : task.attempt + 1 ≤ w.service.queue.maxRetries)
    (hfind : w.service.jobs.find? (·.id == task.id) = some j) (hterm : j.terminal = false) (now : Nat) :
    (∃ v, (w.service.cancel task.id).1 = .ok v) ∧
      (w.service.cancel task.id).2 = w.service.putJob { j with stopped := true } ∧
      ((w.service.cancel task.id).2.queue.finish task (.error f) now).retries =
        w.service.queue.retries ++
          [(now + w.service.queue.retryDelay, { task with attempt := task.attempt + 1 })] := by
  have hpending := (hs.jobs.consistent j (List.mem_of_find?_eq_some hfind)).pending hterm
  have hin : task ∈ w.service.queue.running :=
    hs.queue.running_perm.symm.subset (by rw [hheld]; simp)
  have hrun : w.service.queue.running.any (·.id == task.id) = true :=
    List.any_eq_true.2 ⟨task, hin, by simp⟩
  have hcancel : w.service.cancel task.id =
      (.ok (Service.statusJson { j with stopped := true } none w.service.clock),
        w.service.putJob { j with stopped := true }) := by
    unfold Service.cancel
    rw [Service.job?_of_unfinished hfind hpending.2]
    dsimp only
    rw [JobQueue.cancel_eq]
    simp [hterm, hrun]
  rw [hcancel]
  refine ⟨⟨_, rfl⟩, rfl, ?_⟩
  change (w.service.queue.finish task (.error f) now).retries = _
  rw [JobQueue.finish_of_retry hf hle hs.queue.not_stopped]

/-- Whatever the interleaving of the service's sections and however its runs end: a job that
ended is never changed again; each job runs at most once more than the retries allow, its runs
are its attempts in order, and every run but the last is one the service retries; the answer
the handler gives makes the queue retry exactly when the service decides to; and a job's
result is there exactly when it completed. -/
theorem job_lifecycle_safe {w : Workers} (hw : w.Reachable) :
    (∀ w', Relation.ReflTransGen Step w w' → ∀ id j, w.service.jobs.find? (·.id == id) = some j →
      j.terminal = true → ∀ j', w'.service.jobs.find? (·.id == id) = some j' → j' = j) ∧
    (∀ id, ((w.runsOf id).length : Int) ≤ max w.service.settings.queue.maxRetries 0 + 1 ∧
      (w.runsOf id).map (·.1.attempt) = List.range (w.runsOf id).length ∧
      ∀ r ∈ (w.runsOf id).dropLast, w.service.settings.retryable r.1.attempt r.2 = true) ∧
    (∀ t, (t, Phase.started) ∈ w.held →
      ((w.runsOf t.id).length : Int) + 1 ≤ max w.service.settings.queue.maxRetries 0 + 1) ∧
    (∀ job task result now,
      w.service.queue.finish task (w.service.recordRun job task.attempt result).2 now =
        if w.service.settings.retryable task.attempt result then
          { w.service.queue with
            running := w.service.queue.running.erase task
            retries := w.service.queue.retries ++
              [(now + w.service.queue.retryDelay, { task with attempt := task.attempt + 1 })] }
        else { w.service.queue with running := w.service.queue.running.erase task }) ∧
    (∀ id j, (w.service.job? id).1 = some j →
      ((∃ v, (w.service.result id).1 = .ok v) ↔ j.state = "completed") ∧
      ∀ r, j.result = some r →
        (w.service.result id).1 = .ok (Service.resultJson j r, r.timetable.size, r.timetable.unscheduled.length)) := by
  have hs := hw.sound
  refine ⟨fun w' h id j hfind hterm j' hj' ↦ ?_,
    fun id ↦ ⟨hs.runs_length_le id, hs.runs.attempts id, hs.runs.retried id⟩,
    fun t ht ↦ hs.started_runs_le ht,
    fun job task result now ↦
      Service.finish_recordRun hs.queue.maxRetries_eq hs.queue.not_stopped job task result now,
    fun id j h ↦ Service.result_of_consistent hs.jobs.consistent h⟩
  rcases hs.holdsAtMost_star h hfind hterm with hnow | hnow
  · rw [hnow] at hj'
    exact (Option.some.inj hj').symm
  · rw [hnow] at hj'
    cases hj'

/-- A service just created with the default settings, its runs finding one community of all
linked courses, over no result cache and no record source. -/
def created : Workers :=
  { service := Service.create { pipeline := .oneCommunityUntimed } .absent .none {} none {} {} 0 }

/-- A generation request that carries its records: one course of two sessions, one member of
staff, one room and one slot. -/
def singleRecordsRequest : SubmitRequest :=
  { organization := "o", semester := 1, academicYear := "y", quality := "fast",
    dataset := some (Domain.singleRecords, .null) }

/-- The service just created accepts the request and records one job for it. -/
theorem accept_singleRecordsRequest :
    ∃ id s, created.service.accept singleRecordsRequest = (.ok id, s) ∧ s.jobs.length = 1 := by
  cases hb : Catalog.build Domain.singleRecords with
  | error err =>
    simp [Domain.singleRecords, Catalog.build, Catalog.indexFaculty, Catalog.indexSlots,
      Catalog.indexRooms, Catalog.indexCourses, Catalog.courseStudents, stableSort, dedupStrings,
      sortStrings] at hb
    cases hb
  | ok e =>
    -- the request is valid, its records are kept whole and build, and the started queue has room
    have hv : singleRecordsRequest.valid = true := by decide +kernel
    have hq : Quality.parse "fast" = .ok .fast := by decide +kernel
    have hf : Domain.singleRecords.filter "" [] = Domain.singleRecords := by
      simp [Dataset.filter, Domain.singleRecords, Dataset.keeps]
    have hb' : Catalog.build { Domain.singleRecords with timeSlots := Domain.singleRecords.timeSlots } =
        .ok e := hb
    have hdata : singleRecordsRequest.dataset = some (Domain.singleRecords, .null) := rfl
    have hcourses : Domain.singleRecords.courses.isEmpty = false := rfl
    have hslots : Domain.singleRecords.timeSlots.isEmpty = false := rfl
    unfold Service.accept Service.prepare Service.loadRecords
    simp only [hv, hdata, show singleRecordsRequest.quality = "fast" from rfl,
      show singleRecordsRequest.department = "" from rfl, show singleRecordsRequest.batchIds = none from rfl,
      show singleRecordsRequest.grid = none from rfl, Option.getD_none, hf, hcourses, hslots]
    simp [hq, hb', Service.freshId, created, Service.create, JobQueue.tryEnqueue, JobQueue.refusal?,
      JobQueue.start, JobQueue.create]

/-- The service just created, once it accepted the request. -/
def oneJob : Workers := { service := (created.service.accept singleRecordsRequest).2 }

theorem reachable_oneJob : oneJob.Reachable :=
  .step (.create _ _ _ _ _ _ _ _) (.submit _ fun _ _ _ ↦ List.not_mem_nil)

theorem length_jobs_oneJob : oneJob.service.jobs.length = 1 := by
  obtain ⟨id, s, hacc, hlen⟩ := accept_singleRecordsRequest
  rw [oneJob, hacc]
  exact hlen

theorem job_lifecycle_safe_oneJob :
    oneJob.Reachable ∧ oneJob.service.jobs.length = 1 ∧
    (∀ w', Relation.ReflTransGen Step oneJob w' → ∀ id j, oneJob.service.jobs.find? (·.id == id) = some j →
      j.terminal = true → ∀ j', w'.service.jobs.find? (·.id == id) = some j' → j' = j) ∧
    (∀ id, ((oneJob.runsOf id).length : Int) ≤ max oneJob.service.settings.queue.maxRetries 0 + 1 ∧
      (oneJob.runsOf id).map (·.1.attempt) = List.range (oneJob.runsOf id).length ∧
      ∀ r ∈ (oneJob.runsOf id).dropLast, oneJob.service.settings.retryable r.1.attempt r.2 = true) ∧
    (∀ t, (t, Phase.started) ∈ oneJob.held →
      ((oneJob.runsOf t.id).length : Int) + 1 ≤ max oneJob.service.settings.queue.maxRetries 0 + 1) ∧
    (∀ job task result now,
      oneJob.service.queue.finish task (oneJob.service.recordRun job task.attempt result).2 now =
        if oneJob.service.settings.retryable task.attempt result then
          { oneJob.service.queue with
            running := oneJob.service.queue.running.erase task
            retries := oneJob.service.queue.retries ++
              [(now + oneJob.service.queue.retryDelay, { task with attempt := task.attempt + 1 })] }
        else { oneJob.service.queue with running := oneJob.service.queue.running.erase task }) ∧
    (∀ id j, (oneJob.service.job? id).1 = some j →
      ((∃ v, (oneJob.service.result id).1 = .ok v) ↔ j.state = "completed") ∧
      ∀ r, j.result = some r →
        (oneJob.service.result id).1 = .ok (Service.resultJson j r, r.timetable.size,
          r.timetable.unscheduled.length)) :=
  ⟨reachable_oneJob, length_jobs_oneJob, job_lifecycle_safe reachable_oneJob⟩

end Workers

end Timetabling
