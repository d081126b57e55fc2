import Timetabling.Service.Workers

/-! # What each locked section changes

One lemma per section of the service and its queue says which fields of the state it touches and
how: taking a task moves it from the head of the line (the buffer, then the tasks waiting for
room in it), past the cancelled ones, to the running set; finishing a task takes it out of the
running set and schedules at most one retry, one attempt later; firing the due retries moves
them to the end of the line; a cancel changes the queue only by marking a task that is not
running. On the service's side, a section changes one job's record
(`putJob`), appends one (`accept`), or drops an expired one (`job?`), and nothing else that the
job lifecycle reads.

The frames are collected in `Service.KeepsTasks`: the handler's sections, a cancel and a lookup
leave the queue's tasks, the settings and the identifiers accepted alone. A record of the store
is `Job.Consistent` when it has a result exactly when it completed; in a store of such records a
result is there exactly when its job completed (`Service.result_of_consistent`). -/

namespace Timetabling

namespace JobQueue

variable {q q' : JobQueue} {task : QueueJob}

/-- Skipping the cancelled tasks at the head of the buffer leaves a suffix of it. -/
theorem skipDropped_suffix : ∀ (buffer : List QueueJob) (dropped : List String),
    (skipDropped buffer dropped).1 <:+ buffer
  | [], _ => List.suffix_refl _
  | j :: rest, dropped => by
    unfold skipDropped
    split
    · exact (skipDropped_suffix rest _).trans (List.suffix_cons j rest)
    · exact List.suffix_refl _

/-- Lining tasks up splits them between the buffer and the wait for room, in order. -/
@[simp] theorem queued_lineUp (q : JobQueue) (line : List QueueJob) : (q.lineUp line).queued = line := by
  simp [queued, lineUp]

/-- A worker takes the first task in line past the cancelled ones and registers it as running. -/
theorem next_eq_some (h : q.next = (some task, q')) :
    ∃ rest dropped, task :: rest <:+ q.queued ∧
      q' = { q.lineUp rest with dropped, running := q.running ++ [task] } := by
  unfold next at h
  split at h
  · cases h
  · have hsuffix := skipDropped_suffix q.queued q.dropped
    revert hsuffix
    generalize skipDropped q.queued q.dropped = skipped at h
    obtain ⟨line, dropped⟩ := skipped
    intro hsuffix
    dsimp only at h hsuffix
    cases line with
    | nil => cases h
    | cons j rest =>
      cases h
      exact ⟨rest, dropped, hsuffix, rfl⟩

/-- A worker that takes no task leaves the queue as it was, or drops the cancelled tasks, which
are all that is left in line. -/
theorem next_eq_none (h : q.next = (none, q')) : q' = q ∨ ∃ dropped, q' = { q.lineUp [] with dropped } := by
  unfold next at h
  split at h
  · cases h
    exact .inl rfl
  · generalize skipDropped q.queued q.dropped = skipped at h
    obtain ⟨line, dropped⟩ := skipped
    dsimp only at h
    cases line with
    | nil =>
      cases h
      exact .inr ⟨dropped, rfl⟩
    | cons j rest => cases h

/-- The retry a finished task gets, if any: one attempt later, unless the answer was a success
or a permanent failure, the attempts are used up, or the queue was stopped. -/
theorem finish_cases (q : JobQueue) (task : QueueJob) (answer : Except Fault Unit) (now : Nat) :
    q.finish task answer now = { q with running := q.running.erase task } ∨
      ∃ f, answer = .error f ∧ f.isPermanent = false ∧ task.attempt + 1 ≤ q.maxRetries ∧
        q.finish task answer now = { q with
          running := q.running.erase task
          retries := q.retries ++ [(now + q.retryDelay, { task with attempt := task.attempt + 1 })] } := by
  unfold finish
  cases answer with
  | ok u => exact .inl rfl
  | error f =>
    dsimp only
    split
    · exact .inl rfl
    · rename_i hretry
      simp only [Bool.or_eq_true, decide_eq_true_eq, not_or] at hretry
      exact .inr ⟨f, rfl, by simpa using hretry.1.1, by omega, rfl⟩

/-- A task whose handler answered a failure that is not permanent is tried again one attempt
later, when attempts are left and the queue runs. -/
theorem finish_of_retry {f : Fault} (hf : f.isPermanent = false)
    (hle : task.attempt + 1 ≤ q.maxRetries) (hrun : q.stopped = false) (now : Nat) :
    q.finish task (.error f) now = { q with
      running := q.running.erase task
      retries := q.retries ++ [(now + q.retryDelay, { task with attempt := task.attempt + 1 })] } := by
  unfold finish
  dsimp only
  rw [if_neg (by simp [hf, hrun]; omega)]

/-- Firing the due retries moves their tasks to the end of the line and keeps the others
waiting. -/
theorem fire_perm (q : JobQueue) (now : Nat) :
    ((q.fire now).queued ++ (q.fire now).retries.map (·.2)).Perm (q.queued ++ q.retries.map (·.2)) := by
  have hline : (q.fire now).queued = q.queued ++
      ((q.retries.filter (·.1 ≤ now)).mergeSort (fun a b ↦ a.1 ≤ b.1)).map (·.2) :=
    queued_lineUp _ _
  have hleft : (q.fire now).retries = q.retries.filter (·.1 > now) := rfl
  rw [hline, hleft, List.append_assoc]
  refine List.Perm.append_left q.queued ?_
  -- the due ones, sorted, then the others: the retries split by the due time
  have hlater : q.retries.filter (fun r ↦ decide (r.1 > now)) =
      q.retries.filter (fun r ↦ !decide (r.1 ≤ now)) :=
    List.filter_congr fun r _ ↦ by
      by_cases h : r.1 ≤ now
      · have hlate : ¬ r.1 > now := by omega
        simp [h, hlate]
      · have hlate : r.1 > now := by omega
        simp [h, hlate]
  rw [hlater, ← List.map_append]
  refine List.Perm.trans ?_ ((List.filter_append_perm (fun r ↦ decide (r.1 ≤ now)) q.retries).map (·.2))
  rw [List.map_append, List.map_append]
  exact ((List.mergeSort_perm _ _).map _).append_right _

/-- A cancel reports whether the task is running, and otherwise only marks it dropped. -/
theorem cancel_eq (q : JobQueue) (id : String) :
    q.cancel id = (q.running.any (·.id == id),
      if q.running.any (·.id == id) || q.dropped.contains id then q
      else { q with dropped := q.dropped ++ [id] }) := by
  unfold cancel
  by_cases h : q.running.any (·.id == id) <;> simp [h]

/-- Offering a task that the queue takes appends it to the buffer. -/
theorem tryEnqueue_eq_ok (h : q.tryEnqueue task = .ok q') : q' = { q with buffer := q.buffer ++ [task] } := by
  unfold tryEnqueue at h
  split at h
  · cases h
  · split at h
    · cases h
    · cases h
      rfl

/-! ### The buffer within its capacity -/

/-- The buffer holds at most its capacity, and tasks wait for room only while it is full. -/
structure Lined (q : JobQueue) : Prop where
  within : q.buffer.length ≤ q.capacity
  full : q.blocked ≠ [] → q.buffer.length = q.capacity

/-- Whether a queue is lined up depends on its buffer, the tasks waiting for room and its
capacity alone. -/
theorem Lined.congr (h : q.Lined) (hbuf : q'.buffer = q.buffer) (hblk : q'.blocked = q.blocked)
    (hcap : q'.capacity = q.capacity) : q'.Lined :=
  ⟨by rw [hbuf, hcap]; exact h.within, by rw [hbuf, hblk, hcap]; exact h.full⟩

theorem lined_lineUp (q : JobQueue) (line : List QueueJob) : (q.lineUp line).Lined := by
  refine ⟨by simp only [lineUp, List.length_take]; exact Nat.min_le_left _ _, fun h ↦ ?_⟩
  -- tasks wait for room only beyond the first `capacity`, which then fill the buffer
  simp only [lineUp, ne_eq, List.drop_eq_nil_iff, Nat.not_le] at h ⊢
  simp only [List.length_take]
  omega

/-- A task offered without waiting enters the buffer only where it has room, so no task was
waiting for room. -/
theorem Lined.tryEnqueue (h : q.Lined) (hq : q.tryEnqueue task = .ok q') : q'.Lined := by
  unfold JobQueue.tryEnqueue at hq
  split at hq
  · cases hq
  · split at hq
    · cases hq
    · rename_i hroom
      cases hq
      have hfree : q.blocked = [] := by
        cases hb : q.blocked with
        | nil => rfl
        | cons t rest =>
          have := h.full (by rw [hb]; exact List.cons_ne_nil t rest)
          omega
      refine ⟨?_, fun hb ↦ absurd hfree hb⟩
      simp only [List.length_append, List.length_singleton]
      omega

theorem Lined.next {x : Option QueueJob} (h : q.Lined) (hn : q.next = (x, q')) : q'.Lined := by
  cases x with
  | some task =>
    obtain ⟨rest, dropped, -, rfl⟩ := next_eq_some hn
    exact (lined_lineUp q rest).congr rfl rfl rfl
  | none =>
    rcases next_eq_none hn with rfl | ⟨dropped, rfl⟩
    · exact h
    · exact (lined_lineUp q []).congr rfl rfl rfl

theorem Lined.finish (h : q.Lined) (task : QueueJob) (answer : Except Fault Unit) (now : Nat) :
    (q.finish task answer now).Lined := by
  rcases finish_cases q task answer now with hf | ⟨-, -, -, -, hf⟩ <;> rw [hf] <;> exact h.congr rfl rfl rfl

/-- Firing retries never overfills the buffer: those that find it full wait for room. -/
theorem lined_fire (q : JobQueue) (now : Nat) : (q.fire now).Lined :=
  (lined_lineUp q _).congr rfl rfl rfl

end JobQueue

@[simp] theorem isTerminalName_completed : isTerminalName "completed" = true := by decide
@[simp] theorem isTerminalName_failed : isTerminalName "failed" = true := by decide
@[simp] theorem isTerminalName_cancelled : isTerminalName "cancelled" = true := by decide
@[simp] theorem isTerminalName_queued : isTerminalName "queued" = false := by decide
@[simp] theorem isTerminalName_running : isTerminalName "running" = false := by decide

/-- A run the service retries left attempts. -/
theorem ServiceSettings.lt_of_retryable {settings : ServiceSettings} {attempt : Nat}
    {result : Except RunFailure RunResult} (h : settings.retryable attempt result = true) :
    (attempt : Int) < settings.queue.maxRetries := by
  unfold ServiceSettings.retryable at h
  split at h
  · exact of_decide_eq_true h
  · cases h

namespace Service

variable {s s' : Service} {task : QueueJob} {job : Job}

theorem putJob_jobs (s : Service) (j : Job) :
    (s.putJob j).jobs = s.jobs.map fun k ↦ if k.id == j.id then j else k := rfl

/-- A service equal to another up to its metrics holds the same jobs and accepted
identifiers. -/
theorem jobs_of_metrics_eq {s₁ s₂ : Service} {m : Option Metrics} (h : { s₁ with metrics := m } = s₂) :
    s₁.jobs = s₂.jobs ∧ s₁.accepted = s₂.accepted := by
  subst h
  exact ⟨rfl, rfl⟩

/-- Replacing a job's record changes what a lookup of its identifier finds, and nothing else. -/
theorem find?_putJob (s : Service) (j : Job) (id : String) :
    (s.putJob j).jobs.find? (·.id == id) =
      if j.id = id then (s.jobs.find? (·.id == id)).map fun _ ↦ j else s.jobs.find? (·.id == id) := by
  -- the replaced record answers the lookup exactly when the one it replaces did
  have hsame : ((·.id == id) ∘ fun k : Job ↦ if k.id == j.id then j else k) = (·.id == id) := by
    funext k
    by_cases hk : k.id = j.id <;> simp [hk]
  rw [putJob_jobs, List.find?_map, hsame]
  cases hfound : s.jobs.find? (·.id == id) with
  | none => split <;> rfl
  | some k =>
    have hk : k.id = id := by simpa using List.find?_some hfound
    split
    · rename_i hj
      simp [hk, hj]
    · rename_i hj
      have hne : k.id ≠ j.id := by rw [hk]; exact Ne.symm hj
      simp [hne]

/-- Dropping the records of one identifier hides that identifier from lookups, and only it. -/
theorem find?_filter_id (jobs : List Job) (x id : String) :
    (jobs.filter (·.id != x)).find? (·.id == id) = if x = id then none else jobs.find? (·.id == id) := by
  rw [List.find?_filter]
  split
  · rename_i hx
    subst hx
    simp
  · rename_i hx
    congr 1
    funext k
    by_cases hk : k.id = id
    · simp [hk, Ne.symm hx]
    · simp [hk]

/-- The records of a request are loaded without touching anything but the storage. -/
theorem loadRecords_snd (s : Service) (r : SubmitRequest) :
    ∃ storage, (s.loadRecords r).2 = { s with storage } := by
  unfold loadRecords
  split
  · exact ⟨s.storage, rfl⟩
  · dsimp only
    split
    · exact ⟨s.storage, rfl⟩
    · split <;> exact ⟨s.storage, rfl⟩
    · split <;> exact ⟨_, rfl⟩

/-- Checking a request touches nothing but the storage. -/
theorem prepare_snd (s : Service) (r : SubmitRequest) :
    ∃ storage, (s.prepare r).2 = { s with storage } := by
  obtain ⟨storage, hload⟩ := loadRecords_snd s r
  unfold prepare
  split
  · exact ⟨s.storage, rfl⟩
  · dsimp only
    split
    · exact ⟨s.storage, rfl⟩
    · -- every later answer comes with the service the records were loaded into
      split
      all_goals
        rename_i s₁ heq
        have hs₁ : s₁ = { s with storage } := by rw [← hload, heq]
        subst hs₁
      · exact ⟨storage, rfl⟩
      · split
        · exact ⟨storage, rfl⟩
        · split
          · exact ⟨storage, rfl⟩
          · split <;> exact ⟨storage, rfl⟩

/-- A request is refused, touching nothing the jobs depend on, or accepted: a queued job with
a new identifier is recorded and its first task is put in the buffer. -/
theorem accept_cases (s : Service) (r : SubmitRequest) :
    (∃ storage issued, (s.accept r).2 = { s with storage, issued }) ∨
      ∃ id job storage issued, (s.accept r).1 = .ok id ∧ job.id = id ∧ job.state = "queued" ∧
        job.result = none ∧ job.finishedAt = none ∧
        (s.accept r).2 = { s with
          storage, issued, jobs := s.jobs ++ [job]
          queue := { s.queue with buffer := s.queue.buffer ++ [⟨id, "timetable.generate", 0⟩] }
          accepted := s.accepted ++ [id] } := by
  obtain ⟨storage, hprep⟩ := prepare_snd s r
  unfold accept
  split
  · rename_i e s₁ heq
    have hs₁ : s₁ = { s with storage } := by rw [← hprep, heq]
    subst hs₁
    exact .inl ⟨storage, s.issued, rfl⟩
  · rename_i e doc quality s₁ heq
    have hs₁ : s₁ = { s with storage } := by rw [← hprep, heq]
    subst hs₁
    dsimp only [freshId]
    split
    · exact .inl ⟨storage, s.issued + 1, rfl⟩
    · rename_i q hq
      rw [JobQueue.tryEnqueue_eq_ok hq]
      exact .inr ⟨_, _, storage, s.issued + 1, rfl, rfl, rfl, rfl, rfl, rfl⟩

/-- Accepting a request leaves the queue as it was, or offers the queue a task without waiting. -/
theorem accept_queue (s : Service) (r : SubmitRequest) :
    (s.accept r).2.queue = s.queue ∨ ∃ task, s.queue.tryEnqueue task = .ok (s.accept r).2.queue := by
  obtain ⟨storage, hprep⟩ := prepare_snd s r
  unfold accept
  split
  · rename_i e s₁ heq
    have hs₁ : s₁ = { s with storage } := by rw [← hprep, heq]
    subst hs₁
    exact .inl rfl
  · rename_i e doc quality s₁ heq
    have hs₁ : s₁ = { s with storage } := by rw [← hprep, heq]
    subst hs₁
    dsimp only [freshId]
    split
    · exact .inl rfl
    · rename_i q hq
      exact .inr ⟨_, hq⟩

/-- A lookup returns the job with its identifier as it is, or drops it when it finished longer
ago than the time to live. -/
theorem job?_cases (s : Service) (id : String) :
    ((s.job? id).2 = s ∧ ∀ j, (s.job? id).1 = some j → s.jobs.find? (·.id == id) = some j) ∨
      ∃ j, s.jobs.find? (·.id == id) = some j ∧ j.finishedAt.isSome ∧ (s.job? id).1 = none ∧
        (s.job? id).2 = { s with
          jobs := s.jobs.filter (·.id != id)
          progress := s.progress.filter (·.1 != id) } := by
  unfold job?
  split
  · exact .inl ⟨rfl, fun j h ↦ by cases h⟩
  · rename_i j hj
    split
    · rename_i t ht
      split
      · exact .inr ⟨j, hj, by simp [ht], rfl, rfl⟩
      · exact .inl ⟨rfl, fun j' h ↦ by cases h; exact hj⟩
    · exact .inl ⟨rfl, fun j' h ↦ by cases h; exact hj⟩

/-- A lookup that finds a job keeps the service as it was. -/
theorem job?_eq_some {id : String} {j : Job} (h : s.job? id = (some j, s')) :
    s' = s ∧ s.jobs.find? (·.id == id) = some j := by
  rcases job?_cases s id with ⟨hs, hfind⟩ | ⟨j', -, -, hnone, -⟩
  · rw [h] at hs hfind
    exact ⟨hs, hfind j rfl⟩
  · rw [h] at hnone
    cases hnone

/-- A lookup finds a job that has no finishing time, and keeps the service. -/
theorem job?_of_unfinished {id : String} {j : Job} (hfind : s.jobs.find? (·.id == id) = some j)
    (hfin : j.finishedAt = none) : s.job? id = (some j, s) := by
  unfold job?
  rw [hfind]
  dsimp only
  rw [hfin]

/-- The handler's start finds a job that has not ended and marks it running. -/
theorem beginRun_eq_some (h : s.beginRun task = (some job, s')) :
    s.jobs.find? (·.id == task.id) = some job ∧ job.terminal = false ∧
      s' = s.putJob { job with state := "running", startedAt := some s.clock } := by
  unfold beginRun at h
  rcases hcase : s.job? task.id with ⟨_ | j, s₁⟩
  · rw [hcase] at h
    cases h
  · obtain ⟨hs, hfind⟩ := job?_eq_some hcase
    subst s₁
    rw [hcase] at h
    dsimp only at h
    split at h
    · cases h
    · rename_i hterm
      cases h
      exact ⟨hfind, by simpa using hterm, rfl⟩

/-- The handler's start that finds no job to run only looks the job up. -/
theorem beginRun_eq_none (h : s.beginRun task = (none, s')) : s' = (s.job? task.id).2 := by
  unfold beginRun at h
  split at h
  · rename_i s₁ hj
    cases h
    rw [hj]
  · rename_i j s₁ hj
    split at h
    · cases h
      rw [hj]
    · cases h

/-- How the handler records a run: the job's record is replaced, the metrics observe the run,
and nothing else changes. A success completes the job with its result; a failure the service
retries puts the job back in the queued state and answers a failure that is not permanent; any
other failure ends the job and answers a permanent one. -/
theorem recordRun_cases (s : Service) (job : Job) (attempt : Nat) (result : Except RunFailure RunResult) :
    ∃ job', { (s.recordRun job attempt result).1 with metrics := s.metrics } = s.putJob job' ∧
      job'.id = job.id ∧
      ((∃ r, result = .ok r ∧ job'.state = "completed" ∧ job'.result = some r ∧
          job'.finishedAt.isSome ∧ (s.recordRun job attempt result).2 = .ok ()) ∨
        (s.settings.retryable attempt result = true ∧ job'.state = "queued" ∧
          job'.result = job.result ∧ job'.finishedAt = job.finishedAt ∧
          ∃ f, (s.recordRun job attempt result).2 = .error f ∧ f.isPermanent = false) ∨
        (s.settings.retryable attempt result = false ∧
          (job'.state = "failed" ∨ job'.state = "cancelled") ∧
          job'.result = job.result ∧ job'.finishedAt.isSome ∧
          ∃ f, (s.recordRun job attempt result).2 = .error f ∧ f.isPermanent = true)) := by
  cases result with
  | ok r => exact ⟨_, rfl, rfl, .inl ⟨r, rfl, rfl, rfl, rfl, rfl⟩⟩
  | error f =>
    cases f with
    | refused m => exact ⟨_, rfl, rfl, .inr (.inr ⟨rfl, .inl rfl, rfl, rfl, _, rfl, rfl⟩)⟩
    | fault m => exact ⟨_, rfl, rfl, .inr (.inr ⟨rfl, .inl rfl, rfl, rfl, _, rfl, rfl⟩)⟩
    | stopped kind last cause stats =>
      cases kind with
      | cancelled => exact ⟨_, rfl, rfl, .inr (.inr ⟨rfl, .inr rfl, rfl, rfl, _, rfl, rfl⟩)⟩
      | invariantViolation => exact ⟨_, rfl, rfl, .inr (.inr ⟨rfl, .inl rfl, rfl, rfl, _, rfl, rfl⟩)⟩
      | resourceExhausted =>
        by_cases h : (attempt : Int) < s.settings.queue.maxRetries
        · have hr : s.settings.retryable attempt (.error (.stopped .resourceExhausted last cause stats)) = true := by
            simp [ServiceSettings.retryable, h]
          let failure := failureError (.stopped .resourceExhausted last cause stats)
          refine ⟨{ job with failure := some failure, lastStage := last.name, state := "queued" },
            ?_, rfl, .inr (.inl ⟨hr, rfl, rfl, rfl, .plain (RunFailure.stopped .resourceExhausted last cause stats).message, ?_, rfl⟩)⟩
          all_goals simp [recordRun, h]
          rfl
        · have hr : s.settings.retryable attempt (.error (.stopped .resourceExhausted last cause stats)) = false := by
            simp [ServiceSettings.retryable, h]
          let failure := failureError (.stopped .resourceExhausted last cause stats)
          refine ⟨{ job with failure := some failure, lastStage := last.name }.finish "failed" s.clock,
            ?_, rfl, .inr (.inr ⟨hr, .inl rfl, rfl, rfl, .permanent (.plain (RunFailure.stopped .resourceExhausted last cause stats).message), ?_, rfl⟩)⟩
          all_goals simp [recordRun, h]
          rfl

/-- The handler hands the queue a failure that is not permanent only after a run the service
retries. -/
theorem retryable_of_recordRun {job : Job} {attempt : Nat} {result : Except RunFailure RunResult}
    {answer : Except Fault Unit} {f : Fault} (hr : s.recordRun job attempt result = (s', answer))
    (hf : answer = .error f) (hperm : f.isPermanent = false) :
    s.settings.retryable attempt result = true := by
  obtain ⟨job', -, -, hcases⟩ := recordRun_cases s job attempt result
  rw [hr] at hcases
  dsimp only at hcases
  rcases hcases with ⟨r, -, -, -, -, hans⟩ | ⟨hret, -⟩ | ⟨-, -, -, -, f', hans, hperm'⟩
  · rw [hans] at hf
    cases hf
  · exact hret
  · rw [hans] at hf
    cases hf
    rw [hperm] at hperm'
    cases hperm'

/-- The service's retry decision and the queue's agree: the answer the handler gives for a run
makes the queue schedule another attempt exactly when the service retries the run. -/
theorem finish_recordRun (hmax : s.queue.maxRetries = s.settings.queue.maxRetries.toNat)
    (hrun : s.queue.stopped = false) (job : Job) (task : QueueJob)
    (result : Except RunFailure RunResult) (now : Nat) :
    s.queue.finish task (s.recordRun job task.attempt result).2 now =
      if s.settings.retryable task.attempt result then
        { s.queue with
          running := s.queue.running.erase task
          retries := s.queue.retries ++ [(now + s.queue.retryDelay, { task with attempt := task.attempt + 1 })] }
      else { s.queue with running := s.queue.running.erase task } := by
  obtain ⟨job', -, -, hcase⟩ := recordRun_cases s job task.attempt result
  rcases hcase with ⟨r, rfl, -, -, -, hans⟩ | ⟨hr, -, -, -, f, hans, hf⟩ | ⟨hr, -, -, -, f, hans, hf⟩
  · rw [hans]
    rfl
  · have hlt := ServiceSettings.lt_of_retryable hr
    rw [hans, if_pos hr, JobQueue.finish_of_retry hf (by omega) hrun]
  · rw [hans, if_neg (by simp [hr])]
    unfold JobQueue.finish
    simp [hf]

/-- A cancel of a job that is gone, expired or ended only looks it up. Any other job is asked to
stop when the queue runs a task of it, ends as cancelled when it is queued and no task of it
runs, and is otherwise left as it is; the queue only marks a task that does not run to be
dropped. -/
theorem cancel_cases (s : Service) (id : String) :
    ((s.cancel id).2 = (s.job? id).2 ∧ ∀ j, (s.job? id).1 = some j → j.terminal = true) ∨
      ∃ j, s.jobs.find? (·.id == id) = some j ∧ j.terminal = false ∧
        ((s.queue.running.any (·.id == id) = true ∧
            (s.cancel id).2 = s.putJob { j with stopped := true }) ∨
          (s.queue.running.any (·.id == id) = false ∧ j.state = "queued" ∧
            ∃ job', { (s.cancel id).2 with metrics := s.metrics } =
                { s.putJob job' with queue := (s.queue.cancel id).2 } ∧
              job'.id = j.id ∧ job'.state = "cancelled" ∧ job'.result = j.result ∧
              job'.finishedAt.isSome) ∨
          (s.queue.running.any (·.id == id) = false ∧ j.state ≠ "queued" ∧
            (s.cancel id).2 = { s with queue := (s.queue.cancel id).2 })) := by
  unfold cancel
  rcases hcase : s.job? id with ⟨_ | j, s₁⟩
  · exact .inl ⟨rfl, fun j h ↦ by cases h⟩
  · obtain ⟨hs, hfind⟩ := job?_eq_some hcase
    subst s₁
    dsimp only
    by_cases hterm : j.terminal = true
    · exact .inl ⟨by rw [if_pos hterm], fun j' h ↦ by cases h; exact hterm⟩
    · rw [if_neg hterm]
      refine .inr ⟨j, hfind, by simpa using hterm, ?_⟩
      rw [JobQueue.cancel_eq]
      by_cases hrun : s.queue.running.any (·.id == id) = true
      · exact .inl ⟨hrun, by simp [hrun]⟩
      · have hrun' : s.queue.running.any (·.id == id) = false := by simpa using hrun
        by_cases hq : j.state = "queued"
        · let failure := ApiError.cancelled.withMessage "generation cancelled before start"
          refine .inr (.inl ⟨hrun', hq, { j with failure := some failure }.finish "cancelled" s.clock,
            ?_, rfl, rfl, rfl, rfl⟩)
          simp only [hrun', hq, beq_self_eq_true, Bool.false_eq_true, ↓reduceIte]
          rfl
        · refine .inr (.inr ⟨hrun', hq, ?_⟩)
          simp [hrun', hq]

end Service

/-- Two queues hold the same tasks with the same settings; only their cancellation marks may
differ. -/
structure JobQueue.SameTasks (q q' : JobQueue) : Prop where
  buffer : q'.buffer = q.buffer
  blocked : q'.blocked = q.blocked
  capacity : q'.capacity = q.capacity
  retries : q'.retries = q.retries
  running : q'.running = q.running
  maxRetries : q'.maxRetries = q.maxRetries
  stopped : q'.stopped = q.stopped

theorem JobQueue.SameTasks.refl (q : JobQueue) : q.SameTasks q := ⟨rfl, rfl, rfl, rfl, rfl, rfl, rfl⟩

/-- A cancel only marks a task to be dropped. -/
theorem JobQueue.sameTasks_cancel (q : JobQueue) (id : String) : q.SameTasks (q.cancel id).2 := by
  rw [JobQueue.cancel_eq]
  split
  · exact .refl q
  · exact ⟨rfl, rfl, rfl, rfl, rfl, rfl, rfl⟩

theorem JobQueue.Lined.sameTasks {q q' : JobQueue} (h : q.Lined) (hs : q.SameTasks q') : q'.Lined :=
  h.congr hs.buffer hs.blocked hs.capacity

/-- A section that leaves the queue's tasks, the settings and the identifiers accepted alone:
the handler's sections, a cancel, a lookup. -/
structure Service.KeepsTasks (s s' : Service) : Prop where
  queue : s.queue.SameTasks s'.queue
  settings : s'.settings = s.settings
  accepted : s'.accepted = s.accepted

/-- A job's record is consistent: it has a result exactly when it completed, and a finishing
time only once it ended. -/
structure Job.Consistent (j : Job) : Prop where
  result_iff : j.result.isSome ↔ j.state = "completed"
  finished : j.finishedAt.isSome → j.terminal

namespace Job

/-- A job that has not ended has no result and no finishing time. -/
theorem Consistent.pending {j : Job} (hc : j.Consistent) (h : j.terminal = false) :
    j.result = none ∧ j.finishedAt = none := by
  have hstate : j.state ≠ "completed" := by
    intro hs
    simp [terminal, hs] at h
  refine ⟨?_, ?_⟩
  · cases hr : j.result with
    | none => rfl
    | some r => exact absurd (hc.result_iff.1 (by simp [hr])) hstate
  · cases hf : j.finishedAt with
    | none => rfl
    | some t =>
      have := hc.finished (by simp [hf])
      rw [h] at this
      cases this

end Job

namespace Service

variable {s s' : Service}

/-- Replacing a record keeps the identifiers of the store. -/
theorem putJob_ids (s : Service) (j : Job) : (s.putJob j).jobs.map (·.id) = s.jobs.map (·.id) := by
  rw [putJob_jobs, List.map_map]
  congr 1
  funext k
  by_cases hk : k.id = j.id <;> simp [hk]

theorem mem_putJob {s : Service} {j k : Job} (h : k ∈ (s.putJob j).jobs) : k = j ∨ k ∈ s.jobs := by
  rw [putJob_jobs, List.mem_map] at h
  obtain ⟨k', hk', rfl⟩ := h
  split
  · exact .inl rfl
  · exact .inr hk'

theorem KeepsTasks.refl (s : Service) : s.KeepsTasks s := ⟨.refl _, rfl, rfl⟩

theorem keepsTasks_putJob (s : Service) (j : Job) : s.KeepsTasks (s.putJob j) :=
  ⟨.refl s.queue, rfl, rfl⟩

theorem keepsTasks_job? (s : Service) (id : String) : s.KeepsTasks (s.job? id).2 := by
  rcases job?_cases s id with ⟨hs, -⟩ | ⟨j, -, -, -, hs⟩
  · rw [hs]
    exact .refl s
  · rw [hs]
    exact ⟨.refl s.queue, rfl, rfl⟩

theorem keepsTasks_beginRun {task : QueueJob} {o : Option Job} (hb : s.beginRun task = (o, s')) :
    s.KeepsTasks s' := by
  have hs : s' = (s.beginRun task).2 := by rw [hb]
  subst hs
  unfold beginRun
  rcases hcase : s.job? task.id with ⟨_ | j, s₁⟩
  · have hk := keepsTasks_job? s task.id
    rw [hcase] at hk
    exact hk
  · obtain ⟨hs, -⟩ := job?_eq_some hcase
    subst s₁
    dsimp only
    split
    · exact .refl s
    · exact keepsTasks_putJob s _

theorem keepsTasks_recordRun {job : Job} {attempt : Nat} {result : Except RunFailure RunResult}
    {answer : Except Fault Unit} (hr : s.recordRun job attempt result = (s', answer)) :
    s.KeepsTasks s' := by
  obtain ⟨job', heq, -⟩ := recordRun_cases s job attempt result
  rw [hr] at heq
  have hq := congrArg Service.queue heq
  have hset := congrArg Service.settings heq
  have hacc := congrArg Service.accepted heq
  exact ⟨hq ▸ .refl s.queue, hset, hacc⟩

theorem keepsTasks_cancel (s : Service) (id : String) : s.KeepsTasks (s.cancel id).2 := by
  rcases cancel_cases s id with ⟨hs, -⟩ | ⟨j, -, -, ⟨-, hs⟩ | ⟨-, -, job', heq, -⟩ | ⟨-, -, hs⟩⟩
  · rw [hs]
    exact keepsTasks_job? s id
  · rw [hs]
    exact keepsTasks_putJob s _
  · have hq := congrArg Service.queue heq
    have hset := congrArg Service.settings heq
    have hacc := congrArg Service.accepted heq
    exact ⟨hq ▸ s.queue.sameTasks_cancel id, hset, hacc⟩
  · rw [hs]
    exact ⟨s.queue.sameTasks_cancel id, rfl, rfl⟩

/-- The store holds at most the given record under an identifier: that record, or none. -/
def HoldsAtMost (s : Service) (id : String) (j : Job) : Prop :=
  s.jobs.find? (·.id == id) = some j ∨ s.jobs.find? (·.id == id) = none

/-- A lookup keeps a job or drops it. -/
theorem HoldsAtMost.job? {id : String} {j : Job} (h : s.HoldsAtMost id j) (x : String) :
    (s.job? x).2.HoldsAtMost id j := by
  rcases job?_cases s x with ⟨hs, -⟩ | ⟨k, -, -, -, hs⟩
  · rw [hs]
    exact h
  · unfold HoldsAtMost
    rw [hs]
    dsimp only
    rw [find?_filter_id]
    split
    · exact .inr rfl
    · exact h

/-- Replacing the record of a job that has not ended keeps what the store holds of one that
ended. -/
theorem HoldsAtMost.putJob {id : String} {j k job' : Job} (h : s.HoldsAtMost id j)
    (hterm : j.terminal = true) (hk : s.jobs.find? (·.id == job'.id) = some k)
    (hk' : k.terminal = false) : (s.putJob job').HoldsAtMost id j := by
  unfold HoldsAtMost
  rw [find?_putJob]
  split
  · -- the record replaced is not the one that ended
    rename_i hid
    rw [hid] at hk
    rcases h with h | h
    · rw [h] at hk
      cases hk
      rw [hterm] at hk'
      cases hk'
    · rw [h] at hk
      cases hk
  · exact h

/-- A result is there exactly when its job completed, in a store of consistent records. -/
theorem result_of_consistent (hc : ∀ j ∈ s.jobs, j.Consistent) {id : String} {j : Job}
    (h : (s.job? id).1 = some j) :
    ((∃ v, (s.result id).1 = .ok v) ↔ j.state = "completed") ∧
      ∀ r, j.result = some r →
        (s.result id).1 = .ok (resultJson j r, r.timetable.size, r.timetable.unscheduled.length) := by
  rcases hcase : s.job? id with ⟨_ | j', s'⟩
  · rw [hcase] at h
    cases h
  · rw [hcase] at h
    cases h
    obtain ⟨-, hfind⟩ := job?_eq_some hcase
    have hjc := hc j (List.mem_of_find?_eq_some hfind)
    unfold result
    rw [hcase]
    dsimp only
    cases hr : j.result with
    | some r =>
      refine ⟨⟨fun _ ↦ hjc.result_iff.1 (by simp [hr]), fun _ ↦ ⟨_, rfl⟩⟩, fun r' hr' ↦ ?_⟩
      cases hr'
      rfl
    | none =>
      -- no result: the answer is an error whatever the failure
      refine ⟨⟨fun ⟨v, hv⟩ ↦ ?_, fun hs ↦ ?_⟩, fun r' hr' ↦ by cases hr'⟩
      · dsimp only at hv
        split at hv
        · split at hv <;> cases hv
        · cases hv
      · have := hjc.result_iff.2 hs
        rw [hr] at this
        cases this

end Service

end Timetabling
