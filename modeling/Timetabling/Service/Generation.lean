import Timetabling.Service.Request
import Timetabling.Service.Metrics
import Timetabling.Service.Http
import Timetabling.Jobs.Queue
import Timetabling.Pipeline.Json
import Timetabling.Catalog.Fixture
import Timetabling.Database.QTables
import Timetabling.Incremental
import Timetabling.Text.Instant

/-! # The generation service

The service takes generation requests, checks them, loads their records, and queues a job for
each. A worker runs the job's generation and records the outcome; a run that ran out of memory is
tried again while retries remain, any other failure is final. Jobs are kept until the result time
to live has passed since they finished. A finished timetable can then take one more course or
lose one without moving the other sessions.

Results are also written to a result cache when the service has one. A result cache may be
configured but unreachable: writing to it fails quietly, and reading from it fails, so a job
that has left the job store is then reported as an internal error instead of as unknown.

Runs may be held at a gate until permits are given, so that what happens while a job runs can
be observed. Time is the service's clock in milliseconds; runs take no time on it. -/

namespace Timetabling

/-- Where the Q-tables of runs are kept. -/
inductive TableBackend where
  | memory
  /-- A store that cannot be reached: loads and saves fail. -/
  | unreachable
  | database
deriving DecidableEq, Repr

/-- The result cache. -/
inductive ResultCache where
  | absent
  /-- A cache without a connection: writes do nothing and reads miss. -/
  | disabled
  /-- A cache whose server cannot be reached: writes fail quietly and reads fail. -/
  | unreachable
deriving DecidableEq, Repr

/-- Where the records of a request come from when it carries none. -/
inductive RecordSource where
  | none
  | fixture (f : Fixture)
  | database

/-- The stores that outlive a service: Q-tables in memory and the database. -/
structure Storage where
  backend : TableBackend := .memory
  tables : TableStore := {}
  database : ScriptedDatabase := {}

/-- The Q-table store of runs over the storage. -/
def Storage.shelf : TableShelf Storage :=
  ⟨fun st scope => match st.backend with
    | .memory => (.ok (st.tables.load scope), st)
    | .unreachable => (.error ("load q-table " ++ scope ++ ": connection refused"), st)
    | .database =>
      let (r, db) := QTableRows.shelf.load st.database scope
      (r, { st with database := db }),
   fun st scope q => match st.backend with
    | .memory =>
      let (r, tables) := TableStore.shelf.save st.tables scope q
      (r, { st with tables })
    | .unreachable => (.error ("save q-table " ++ scope ++ ": connection refused"), st)
    | .database =>
      let (r, db) := QTableRows.shelf.save st.database scope q
      (r, { st with database := db })⟩

/-- The settings of a service. -/
structure ServiceSettings where
  defaultQuality : String := ""
  seed : Nat := 0
  scope : String := ""
  /-- How long finished jobs are kept, in milliseconds; an hour when not positive. -/
  resultTtl : Int := 0
  profile : HardwareProfile := {}
  queue : QueueConfig := {}
  pipeline : PipelineConfig
  origins : List String := []
  apiPrefix : String := "/api/v1"
  /-- Whether runs wait for a permit before they start. -/
  gated : Bool := false
  /-- Whether the service is started; an unstarted service refuses jobs. -/
  start : Bool := true
  /-- Whether the service keeps metrics. -/
  metrics : Bool := true

namespace ServiceSettings

/-- The quality mode used when a request names none. -/
def quality (s : ServiceSettings) : String :=
  if s.defaultQuality.isEmpty then "balanced" else s.defaultQuality

/-- The Q-table scope used when a request names no department. -/
def fallbackScope (s : ServiceSettings) : String :=
  if s.scope.isEmpty then "default" else s.scope

/-- The time to live of finished jobs, in milliseconds. -/
def ttl (s : ServiceSettings) : Nat :=
  if s.resultTtl ≤ 0 then 3600000 else s.resultTtl.toNat

end ServiceSettings

/-- A generation job as the service keeps it. -/
structure Job where
  id : String
  /-- `queued`, `running`, or the stage a run ended in. -/
  state : String := "queued"
  submittedAt : Instant
  startedAt : Option Instant := none
  finishedAt : Option Instant := none
  request : RunRequest
  /-- The batches each course named as sent, `none` when it named none. -/
  batchLinks : List (String × Option (List String)) := []
  failure : Option ApiError := none
  lastStage : String := ""
  result : Option RunResult := none
  /-- Whether the job's run was asked to stop. -/
  stopped : Bool := false

namespace Job

/-- Whether a job has ended. -/
def terminal (j : Job) : Bool :=
  isTerminalName j.state

/-- End a job in a state at a time. -/
def finish (j : Job) (state : String) (now : Instant) : Job :=
  { j with state, finishedAt := some now }

end Job

/-- Runs held at the gate and the permits given. -/
structure Gate where
  permits : Nat := 0
  waiting : List QueueJob := []
  /-- How many runs reached the gate. -/
  arrivals : Nat := 0
deriving Inhabited

/-- The state of a service. -/
structure Service where
  settings : ServiceSettings
  cache : ResultCache := .absent
  source : RecordSource := .none
  storage : Storage := {}
  probe : Option MemoryProbe := none
  metrics : Option Metrics := none
  jobs : List Job := []
  /-- The latest progress event of each job. -/
  progress : List (String × ProgressEvent) := []
  queue : JobQueue
  gate : Gate := {}
  clock : Instant := {}
  /-- How many identifiers were issued. -/
  issued : Nat := 0
  /-- The jobs accepted, in order. -/
  accepted : List String := []

namespace Service

/-- Issue a fresh identifier. -/
def freshId (s : Service) : String × Service :=
  (RequestId.fresh (s.issued + 1), { s with issued := s.issued + 1 })

/-- The job with an identifier, unless it expired; an expired job is dropped. -/
def job? (s : Service) (id : String) : Option Job × Service :=
  match s.jobs.find? (·.id == id) with
  | none => (none, s)
  | some j =>
    match j.finishedAt with
    | some t =>
      if s.clock.since t > s.settings.ttl then
        (none, { s with jobs := s.jobs.filter (·.id != id), progress := s.progress.filter (·.1 != id) })
      else (some j, s)
    | none => (some j, s)

/-- Replace a job's record. -/
def putJob (s : Service) (j : Job) : Service :=
  { s with jobs := s.jobs.map fun k => if k.id == j.id then j else k }

/-- Record a finished run's stages in the metrics. -/
def observeStages (s : Service) (stats : RunStats) : Service :=
  { s with metrics := s.metrics.map fun m => stats.stages.foldl (fun m r => m.observeStage r.stage.name) m }

/-- Record a finished run in the metrics. -/
def observeRun (s : Service) (state : String) (unscheduled : Int) : Service :=
  { s with metrics := s.metrics.map (·.observeRun state unscheduled) }

/-- The API error of a failed run. -/
def failureError : RunFailure → ApiError
  | .stopped .resourceExhausted _ _ _ => ApiError.resourceExhausted
  | .stopped .cancelled _ _ _ => ApiError.cancelled
  | .stopped .invariantViolation _ _ _ => ApiError.invariantViolation
  | _ => ApiError.internal.withMessage "generation failed"

/-- Record how a job's run ended, as its handler does when the run returns: the service after
it, and what the handler answers the queue. A run that ran out of memory goes back to the queue
while retries remain; any other failure is final. -/
def recordRun (s : Service) (job : Job) (attempt : Nat) :
    Except RunFailure RunResult → Service × Except Fault Unit
  | .ok r =>
    let s := s.putJob ({ job with result := some r, failure := none }.finish "completed" s.clock)
    ((s.observeStages r.stats).observeRun "completed" r.quality.unscheduledCount, .ok ())
  | .error f =>
    let job := { job with failure := some (failureError f) }
    let (job, stats, kind) := match f with
      | .stopped kind last _ stats => ({ job with lastStage := last.name }, some stats, some kind)
      | _ => (job, none, none)
    if kind == some .resourceExhausted && (attempt : Int) < s.settings.queue.maxRetries then
      (s.putJob { job with state := "queued" }, .error (.plain f.message))
    else
      let terminal := if kind == some .cancelled then "cancelled" else "failed"
      let s := s.putJob (job.finish terminal s.clock)
      let s := match stats with
        | some st => s.observeStages st
        | none => s
      (s.observeRun terminal 0, .error (.permanent (.plain f.message)))

/-- Run a job a worker holds and record how it ended. -/
def runJob (s : Service) (task : QueueJob) : Service :=
  match s.jobs.find? (·.id == task.id) with
  | none => { s with queue := s.queue.finish task (.ok ()) s.clock.millis }
  | some job =>
    let observer : Observer (List ProgressEvent) := ⟨[], fun evs e => evs ++ [e], fun _ => job.stopped⟩
    let out := generate s.settings.pipeline s.probe Storage.shelf s.storage job.request observer
    let progress := match out.observer.state.getLast? with
      | some e => (s.progress.filter (·.1 != job.id)) ++ [(job.id, e)]
      | none => s.progress
    let s := { s with storage := out.store, probe := out.probe, progress }
    let (s, handled) := s.recordRun job task.attempt out.result
    { s with queue := s.queue.finish task handled s.clock.millis }

/-- The start of a worker's handling of a task: a job that is gone or has ended needs no run;
any other is marked running. -/
def beginRun (s : Service) (task : QueueJob) : Option Job × Service :=
  match s.job? task.id with
  | (none, s) => (none, s)
  | (some job, s) =>
    if job.terminal then (none, s)
    else (some job, s.putJob { job with state := "running", startedAt := some s.clock })

/-- A worker takes up a job: a job that is gone or has ended succeeds at once; otherwise the job
starts running, and its run waits at the gate when there is one and no permit is left. -/
def process (s : Service) (task : QueueJob) : Service :=
  match s.beginRun task with
  | (none, s) => { s with queue := s.queue.finish task (.ok ()) s.clock.millis }
  | (some _, s) =>
    if !s.settings.gated then s.runJob task
    else
      let g := s.gate
      if g.permits > 0 then
        { s with gate := { g with permits := g.permits - 1, arrivals := g.arrivals + 1 } }.runJob task
      else { s with gate := { g with waiting := g.waiting ++ [task], arrivals := g.arrivals + 1 } }

/-- Let free workers take the buffered jobs. -/
def pump (s : Service) : Service :=
  let rec go (fuel : Nat) (s : Service) : Service :=
    match fuel with
    | 0 => s
    | fuel + 1 =>
      match s.queue.next with
      | (none, q) => { s with queue := q }
      | (some task, q) => go fuel ({ s with queue := q }.process task)
  go (s.queue.queued.length + 1) s

/-- Move the clock to a time, running the retries that fall due on the way. -/
def advance (s : Service) (target : Nat) : Service :=
  let rec go (fuel : Nat) (s : Service) : Service :=
    match fuel with
    | 0 => { s with clock := ⟨max s.clock.millis target⟩ }
    | fuel + 1 =>
      match s.queue.nextRetry? with
      | some due =>
        if due ≤ target then
          let now := max s.clock.millis due
          go fuel ({ s with clock := ⟨now⟩, queue := s.queue.fire now }.pump)
        else { s with clock := ⟨max s.clock.millis target⟩ }
      | none => { s with clock := ⟨max s.clock.millis target⟩ }
  go (s.queue.retries.length + s.jobs.length * (s.queue.maxRetries + 1) + 1) s

/-- Wait, within a time limit, until a condition holds, moving to each retry as it falls due;
whether the condition came to hold. -/
def waitUntil (s : Service) (limit : Nat) (holds : Service → Bool) : Bool × Service :=
  let deadline := s.clock.millis + limit
  let rec go (fuel : Nat) (s : Service) : Bool × Service :=
    if holds s then (true, s)
    else match fuel, s.queue.nextRetry? with
      | fuel + 1, some due =>
        if due ≤ deadline then
          let now := max s.clock.millis due
          go fuel ({ s with clock := ⟨now⟩, queue := s.queue.fire now }.pump)
        else (false, { s with clock := ⟨deadline⟩ })
      | _, _ => (false, { s with clock := ⟨deadline⟩ })
  go (s.queue.retries.length + s.jobs.length * (s.queue.maxRetries + 1) + 1) s

/-- Whether every accepted job has ended (a job no longer kept counts as ended). -/
def settled (s : Service) : Bool :=
  s.accepted.all fun id => match s.jobs.find? (·.id == id) with
    | some j => j.terminal
    | none => true

/-- Give permits to the gate: held runs go on in the order they arrived, and freed workers take
further jobs. -/
def release (s : Service) (n : Nat) : Service :=
  let s := { s with gate := { s.gate with permits := s.gate.permits + n } }
  let rec go (fuel : Nat) (s : Service) : Service :=
    match fuel, s.gate.waiting with
    | fuel + 1, task :: rest =>
      if s.gate.permits > 0 then
        let s := { s with gate := { s.gate with permits := s.gate.permits - 1, waiting := rest } }
        go fuel (s.runJob task).pump
      else s
    | _, _ => s
  go (s.gate.waiting.length + s.queue.queued.length + n + 1) (s.pump)

/-- A new service over stores that outlive it. -/
def create (settings : ServiceSettings) (cache : ResultCache) (source : RecordSource) (storage : Storage)
    (probe : Option MemoryProbe) (gate : Gate) (clock : Instant) (issued : Nat) : Service :=
  let q := JobQueue.create "generation" settings.queue
  { settings, cache, source, storage, probe, gate, clock, issued
    metrics := if settings.metrics then some { hasMemory := probe.isSome } else none
    queue := if settings.start then q.start else q }

/-- Settle, stop, and build a new service over the same stores. -/
def restart (s : Service) : Service :=
  let (_, s) := s.waitUntil 20000 settled
  create s.settings s.cache s.source s.storage s.probe s.gate s.clock s.issued

/-! ## Answers -/

/-- The wire form of a progress event. -/
def eventJson (e : ProgressEvent) (now : Instant) : Json :=
  .object ([("job_id", .string e.jobId), ("stage", .string e.stage.name), ("progress_percent", .float e.percent),
    ("current_step", .string e.step), ("elapsed_seconds", .float 0), ("estimated_remaining_seconds", .float 0)] ++
    (match e.detail with
      | some d => if d.isEmpty then [] else [("detail", .object (d.map fun (k, v) => (k, v.toJson)))]
      | none => []) ++
    [("at", .string now.text)])

/-- The status of a job, with its latest progress when it has any. -/
def statusJson (j : Job) (progress : Option ProgressEvent) (now : Instant) : Json :=
  let state := match progress with
    | some e => if j.state == "running" then e.stage.name else j.state
    | none => j.state
  .object ([("job_id", .string j.id), ("state", .string state), ("submitted_at", .string j.submittedAt.text)] ++
    (j.startedAt.map fun t => ("started_at", Json.string t.text)).toList ++
    (j.finishedAt.map fun t => ("finished_at", Json.string t.text)).toList ++
    (progress.map fun e => ("progress", eventJson e now)).toList ++
    (j.failure.map fun f => ("error", Json.object ([("code", .string f.code), ("message", .string f.message)] ++
      (if j.lastStage.isEmpty then [] else [("last_stage", .string j.lastStage)])))).toList)

/-- The finished timetable of a job. -/
def resultJson (j : Job) (r : RunResult) : Json :=
  let t := r.timetable
  let e := t.catalog
  let entries := t.keys.map fun k =>
    let p := (t.lookup k).getD default
    let c := (e.course? k.course).getD {}
    let slot := (e.slot? p.slot).getD {}
    Json.object [("course_id", .string k.course), ("session_number", .int (k.index + 1)),
      ("faculty_id", .string c.facultyId), ("room_id", .string p.room), ("time_slot_id", .string p.slot),
      ("day", .int slot.day), ("start_time", .string slot.start), ("end_time", .string slot.finish),
      ("student_ids", .strings (e.students k.course)),
      ("batch_ids", match (j.batchLinks.find? (·.1 == k.course)).bind (·.2) with
        | some bs => .strings bs
        | none => .null)]
  .object [("job_id", .string j.id), ("entries", .array entries),
    ("unscheduled", .array (t.unscheduled.map fun (k, reason) => .object [("course_id", .string k.course),
      ("session_number", .int (k.index + 1)), ("reason", .string reason)])),
    ("statistics", r.stats.toJson), ("quality", r.quality.toJson), ("strategy", r.strategy.toJson),
    ("completed_at", .string ((j.finishedAt.getD {}).text))]

/-! ## Operations -/

/-- The batches each course of a dataset's JSON form names. -/
def batchLinksOf (doc : Json) : List (String × Option (List String)) :=
  match doc.field? "courses" with
  | some (.array cs) => cs.map fun c => (match c.field? "id" with
      | some (.string id) => id
      | _ => "", Json.batchIdsOf c)
  | _ => []

/-- Load the records of a request: inline, narrowed to its department and batches, or from the
record source. -/
def loadRecords (s : Service) (r : SubmitRequest) : Except ApiError (Dataset × Json) × Service :=
  match r.dataset with
  | some (d, doc) => (.ok (d.filter r.department (r.batchIds.getD []), doc), s)
  | none =>
    let failed := ApiError.internal.withMessage "failed to load scheduling records"
    let decoded (doc : Json) : Except ApiError (Dataset × Json) :=
      match Json.asDataset doc with
      | .ok d => .ok (d, doc)
      | .error _ => .error failed
    match s.source with
    | .none => (.error (ApiError.validation.withMessage "dataset is required when no record store is configured"), s)
    | .fixture f =>
      match f.load false r.department (r.batchIds.getD []) with
      | .ok doc => (decoded doc, s)
      | .error _ => (.error failed, s)
    | .database =>
      let scope : RecordScope :=
        { organization := r.organization, department := r.department,
          batchIds := r.batchIds, semester := r.semester, academicYear := r.academicYear }
      match (RecordStore.load scope).run.run s.storage.database with
      | (.ok doc, db) => (decoded doc, { s with storage := { s.storage with database := db } })
      | (.error _, db) => (.error failed, { s with storage := { s.storage with database := db } })

/-- Check a request, load its records and build its catalog. -/
def prepare (s : Service) (r : SubmitRequest) : Except ApiError (Catalog × Json × String) × Service :=
  if !r.valid then (.error (ApiError.validation.withMessage "invalid generation payload"), s)
  else
    let raw := if r.quality.isEmpty then s.settings.quality else r.quality
    match Quality.parse raw with
    | .error _ => (.error (ApiError.validation.withMessage "invalid quality mode"), s)
    | .ok q =>
      match s.loadRecords r with
      | (.error e, s) => (.error e, s)
      | (.ok (d, doc), s) =>
        if d.courses.isEmpty then
          (.error (ApiError.preconditionFailed.withMessage "no courses found for the requested scope"), s)
        else
          let slots : Except ApiError (List TimeSlot) := match r.grid with
            | some g => match g.config.build with
              | .ok ts => .ok ts
              | .error _ => .error (ApiError.validation.withMessage "invalid time grid")
            | none =>
              if d.timeSlots.isEmpty then
                match GridConfig.standard.build with
                | .ok ts => .ok ts
                | .error _ => .error (ApiError.internal.withMessage "failed to build default time grid")
              else .ok d.timeSlots
          match slots with
          | .error e => (.error e, s)
          | .ok ts =>
            match Catalog.build { d with timeSlots := ts } with
            | .error _ => (.error (ApiError.validation.withMessage "invalid scheduling records"), s)
            | .ok e => (.ok (e, doc, q.name), s)

/-- Accept a request: record a job for it and offer its task to the queue, answering its
identifier. -/
def accept (s : Service) (r : SubmitRequest) : Except ApiError String × Service :=
  match s.prepare r with
  | (.error e, s) => (.error e, s)
  | (.ok (e, doc, quality), s) =>
    let (id, s) := s.freshId
    let req : RunRequest :=
      { jobId := id, catalog := some e, profile := s.settings.profile, quality,
        scope := if r.department.isEmpty then s.settings.fallbackScope else r.department,
        seed := r.seed.getD s.settings.seed }
    let job : Job := { id, submittedAt := s.clock, request := req, batchLinks := batchLinksOf doc }
    match s.queue.tryEnqueue ⟨id, "timetable.generate", 0⟩ with
    | .error _ => (.error ApiError.queueUnavailable, s)
    | .ok q => (.ok id, { s with jobs := s.jobs ++ [job], queue := q, accepted := s.accepted ++ [id] })

/-- Accept a request and let free workers take it up. -/
def submit (s : Service) (r : SubmitRequest) : Except ApiError String × Service :=
  match s.accept r with
  | (.ok id, s) => (.ok id, s.pump)
  | (.error e, s) => (.error e, s)

/-- The status of a job. -/
def status (s : Service) (id : String) : Except ApiError Json × Service :=
  match s.job? id with
  | (none, s) => (.error (ApiError.notFound.withMessage "job not found or expired"), s)
  | (some j, s) => (.ok (statusJson j ((s.progress.find? (·.1 == id)).map (·.2)) s.clock), s)

/-- A result no longer in the job store, read from the result cache. -/
def cachedResult (s : Service) : Except ApiError (Json × Nat × Nat) :=
  match s.cache with
  | .unreachable => .error (ApiError.internal.withMessage "failed to read cached result")
  | _ => .error (ApiError.notFound.withMessage "job not found or expired")

/-- The result of a job, with its numbers of entries and unscheduled sessions. -/
def result (s : Service) (id : String) : Except ApiError (Json × Nat × Nat) × Service :=
  match s.job? id with
  | (none, s) => (s.cachedResult, s)
  | (some j, s) =>
    match j.result with
    | some r => (.ok (resultJson j r, r.timetable.size, r.timetable.unscheduled.length), s)
    | none =>
      match j.failure with
      | some f => if j.terminal then (.error f, s)
        else (.error (ApiError.preconditionFailed.withMessage "job has not completed"), s)
      | none => (.error (ApiError.preconditionFailed.withMessage "job has not completed"), s)

/-- Cancel a job: a waiting job ends at once, a running one is asked to stop. -/
def cancel (s : Service) (id : String) : Except ApiError Json × Service :=
  match s.job? id with
  | (none, s) => (.error (ApiError.notFound.withMessage "job not found or expired"), s)
  | (some j, s) =>
    if j.terminal then (.error (ApiError.conflict.withMessage "job already finished"), s)
    else
      let (running, q) := s.queue.cancel id
      let s := { s with queue := q }
      if running then
        let j := { j with stopped := true }
        (.ok (statusJson j none s.clock), s.putJob j)
      else if j.state == "queued" then
        let j := { j with failure := some (ApiError.cancelled.withMessage "generation cancelled before start") }.finish
          "cancelled" s.clock
        let s := (s.putJob j).observeRun "cancelled" 0
        (.ok (statusJson j none s.clock), s)
      else (.ok (statusJson j none s.clock), s)

/-- Change a finished timetable of a job, updating its quality and counts. -/
def amend (s : Service) (id : String) (change : Job → RunResult → Except ApiError (Timetable × Job)) :
    Except ApiError Json × Service :=
  match s.job? id with
  | (none, s) => (.error (ApiError.notFound.withMessage "job not found or expired"), s)
  | (some j, s) =>
    match j.result with
    | none => (.error (ApiError.preconditionFailed.withMessage "job has no completed timetable"), s)
    | some r =>
      match change j r with
      | .error e => (.error e, s)
      | .ok (t, j) =>
        let stats := { r.stats with courses := t.catalog.courses.size, sessions := t.catalog.totalSessions }
        let r := { r with timetable := t, quality := t.measure, stats }
        let j := { j with result := some r }
        (.ok (resultJson j r), s.putJob j)

/-- Add a course to a job's finished timetable. -/
def addCourse (s : Service) (id : String) (req : CourseRequest) : Except ApiError Json × Service :=
  let c := req.course
  if (Text.trimSpace c.id).isEmpty then (.error (ApiError.validation.withMessage "course id is required"), s)
  else if (Text.trimSpace c.facultyId).isEmpty then
    (.error (ApiError.validation.withMessage "course faculty_id is required"), s)
  else if c.sessions ≤ 0 then
    (.error (ApiError.validation.withMessage "course sessions must be greater than zero"), s)
  else s.amend id fun j r =>
    if (r.timetable.catalog.course? c.id).isSome then
      .error (ApiError.conflict.withMessage ("course " ++ c.id ++ " is already scheduled"))
    else match r.timetable.addCourse c false with
      | .ok t => .ok (t, { j with batchLinks := (j.batchLinks.filter (·.1 != c.id)) ++ [(c.id, req.batchIds)] })
      | .error _ => .error (ApiError.validation.withMessage "course cannot be added")

/-- Remove a course from a job's finished timetable. -/
def removeCourse (s : Service) (id courseId : String) : Except ApiError Json × Service :=
  if (Text.trimSpace courseId).isEmpty then (.error (ApiError.validation.withMessage "course id is required"), s)
  else s.amend id fun j r =>
    if (r.timetable.catalog.course? courseId).isNone then
      .error (ApiError.notFound.withMessage ("course " ++ courseId ++ " not found in timetable"))
    else match r.timetable.removeCourse courseId with
      | .ok t => .ok (t, j)
      | .error _ => .error (ApiError.internal.withMessage "course cannot be removed")

end Service

end Timetabling
