import Timetabling.Service.Generation

/-! # The service and its workers, section by section

The service's workers share the job store and the queue, each under its lock, so between two
locked sections of one worker any section of another may run. The service is then a transition
system whose steps are those sections: accepting a request, a worker taking a task and
registering it as running, the handler marking its job running, the handler recording how the
run ended, the queue taking the task out of its running set and scheduling a retry, the retry
timers putting their tasks back, and a cancel; time passing and a lookup dropping an expired job
are steps too. The runner may end in any way, so the step that records a run takes any outcome.

Identifiers are never used twice: a request is accepted under an identifier the service has not
accepted before. -/

namespace Timetabling

/-- Whether the service hands a run that ended this way back to the queue for another attempt:
the run ran out of memory and attempts are left. -/
def ServiceSettings.retryable (settings : ServiceSettings) (attempt : Nat) :
    Except RunFailure RunResult → Bool
  | .error (.stopped .resourceExhausted _ _ _) => decide ((attempt : Int) < settings.queue.maxRetries)
  | _ => false

/-- How far a worker got with the task it holds. -/
inductive Phase where
  /-- Registered as running; the handler has not started. -/
  | taken
  /-- The handler marked the job running and invoked the runner. -/
  | started
  /-- The handler returned this answer to the queue. -/
  | returned (answer : Except Fault Unit)

/-- The service with what its workers hold: each task taken, with how far its handler got, and
each invocation of the runner so far, with its task and how the run ended. -/
structure Workers where
  service : Service
  held : List (QueueJob × Phase) := []
  runs : List (QueueJob × Except RunFailure RunResult) := []

namespace Workers

/-- One locked section of the service or of its queue. -/
inductive Step : Workers → Workers → Prop where
  /-- A request is accepted under an identifier not accepted before, or refused. -/
  | submit {w : Workers} (r : SubmitRequest)
      (fresh : ∀ id s, w.service.accept r = (.ok id, s) → id ∉ w.service.accepted) :
      Step w { w with service := (w.service.accept r).2 }
  /-- A free worker takes the next task, dropping the cancelled ones before it, and registers
  it as running. -/
  | take {w : Workers} {task : QueueJob} {q : JobQueue} (h : w.service.queue.next = (some task, q)) :
      Step w { w with service := { w.service with queue := q }, held := w.held ++ [(task, .taken)] }
  /-- A worker finds no task to take, dropping the cancelled ones it meets. -/
  | idle {w : Workers} {q : JobQueue} (h : w.service.queue.next = (none, q)) :
      Step w { w with service := { w.service with queue := q } }
  /-- The handler starts and marks its job running. -/
  | start {w : Workers} {pre post : List (QueueJob × Phase)} {task : QueueJob} {job : Job}
      {s : Service} (h : w.held = pre ++ (task, .taken) :: post)
      (hb : w.service.beginRun task = (some job, s)) :
      Step w { w with service := s, held := pre ++ (task, .started) :: post }
  /-- The handler starts and finds its job gone or ended. -/
  | pass {w : Workers} {pre post : List (QueueJob × Phase)} {task : QueueJob} {s : Service}
      (h : w.held = pre ++ (task, .taken) :: post) (hb : w.service.beginRun task = (none, s)) :
      Step w { w with service := s, held := pre ++ (task, .returned (.ok ())) :: post }
  /-- The runner returns, in any way, and the handler records how. -/
  | finish {w : Workers} {pre post : List (QueueJob × Phase)} {task : QueueJob} {job : Job}
      {s : Service} {answer : Except Fault Unit} (result : Except RunFailure RunResult)
      (h : w.held = pre ++ (task, .started) :: post)
      (hjob : w.service.jobs.find? (·.id == task.id) = some job)
      (hr : w.service.recordRun job task.attempt result = (s, answer)) :
      Step w { w with
        service := s
        held := pre ++ (task, .returned answer) :: post
        runs := w.runs ++ [(task, result)] }
  /-- The queue takes a returned task out of its running set and schedules its retry, if any. -/
  | release {w : Workers} {pre post : List (QueueJob × Phase)} {task : QueueJob}
      {answer : Except Fault Unit} (h : w.held = pre ++ (task, .returned answer) :: post) :
      Step w { w with
        service := { w.service with queue := w.service.queue.finish task answer w.service.clock.millis }
        held := pre ++ post }
  /-- The retry timers that are due put their tasks back into the buffer. -/
  | fire {w : Workers} :
      Step w { w with service := { w.service with queue := w.service.queue.fire w.service.clock.millis } }
  /-- A job is cancelled. -/
  | cancel {w : Workers} (id : String) : Step w { w with service := (w.service.cancel id).2 }
  /-- Time passes. -/
  | tick {w : Workers} {t : Nat} (h : w.service.clock.millis ≤ t) :
      Step w { w with service := { w.service with clock := ⟨t⟩ } }
  /-- A job is looked up, which drops it when it expired. -/
  | look {w : Workers} (id : String) : Step w { w with service := (w.service.job? id).2 }

/-- The runs of a job so far, in the order they returned. -/
def runsOf (w : Workers) (id : String) : List (QueueJob × Except RunFailure RunResult) :=
  w.runs.filter (·.1.id == id)

/-- The states a service and its workers reach from the service's creation, whatever the
interleaving of their sections. -/
inductive Reachable : Workers → Prop where
  | create (settings : ServiceSettings) (cache : ResultCache) (source : RecordSource)
      (storage : Storage) (probe : Option MemoryProbe) (gate : Gate) (clock : Instant) (issued : Nat) :
      Reachable { service := Service.create settings cache source storage probe gate clock issued }
  | step {w w' : Workers} : Reachable w → Step w w' → Reachable w'

end Workers

end Timetabling
