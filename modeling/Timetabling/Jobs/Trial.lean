import Timetabling.Jobs.Queue
import Timetabling.Json.Decode

/-! # Queue trials

A trial runs a queue with handlers whose outcomes are fixed in advance: the `n`-th call for a job
takes the `n`-th outcome listed for it, the last one repeating, and a job with no list succeeds.
A call may succeed, fail (and be retried), fail permanently, or block until it is released or
cancelled. Workers start jobs as soon as they are free; time moves on only while the trial waits
for calls, and then only to the next retry, within a bound. Stopping cancels the blocked calls.

A trial is driven by steps: start and stop the queue, offer a job (waiting for room or not),
cancel or release a job, count the waiting jobs, and wait until enough calls have begun or
finished. Every job offered has the kind `t`. -/

namespace Timetabling

/-- What one handler call does. -/
inductive CallPlan where
  | succeed
  | fail
  | failPermanently
  | block
deriving DecidableEq, Repr, Inhabited

/-- One finished handler call: the job's attempt, its kind and how the call ended. -/
structure CallRecord where
  attempt : Nat
  kind : String
  outcome : String
deriving Repr, Inhabited

/-- The state of a trial. -/
structure QueueTrial where
  queue : JobQueue
  plans : List (String × List CallPlan)
  /-- Finished calls by job, in the order of the jobs' first calls. -/
  calls : List (String × List CallRecord) := []
  /-- How many calls each job has begun. -/
  begun : List (String × Nat) := []
  entered : Nat := 0
  finished : Nat := 0
  /-- Calls waiting to be released or cancelled. -/
  blocked : List QueueJob := []
  /-- Jobs released before they blocked. -/
  released : List String := []
  clock : Nat := 0

/-- A step of a trial. -/
inductive TrialStep where
  | start
  | stop
  /-- Offer a job, waiting for room in the buffer or not. -/
  | offer (id : String) (wait : Bool)
  | cancel (id : String)
  | pending
  /-- Wait until this many calls have begun. -/
  | awaitBegun (n : Nat)
  /-- Wait until this many calls have finished. -/
  | awaitFinished (n : Nat)
  | release (id : String)

namespace QueueTrial

/-- How long a trial waits for calls before giving up, in milliseconds. -/
def patience : Nat := 5000

/-- The plan of a job's next call. -/
def planFor (t : QueueTrial) (id : String) : CallPlan :=
  let n := ((t.begun.find? (·.1 == id)).map (·.2)).getD 0
  match (t.plans.find? (·.1 == id)).map (·.2) with
  | none | some [] => .succeed
  | some ps => ps.getD n (ps.getLastD .succeed)

/-- Record that a job's call began. -/
def begin (t : QueueTrial) (id : String) : QueueTrial :=
  let n := ((t.begun.find? (·.1 == id)).map (·.2)).getD 0
  { t with entered := t.entered + 1
           begun := (t.begun.filter (·.1 != id)) ++ [(id, n + 1)] }

/-- Record a finished call and tell the queue how it ended. -/
def complete (t : QueueTrial) (job : QueueJob) (outcome : String) (result : Except Fault Unit) :
    QueueTrial :=
  let r : CallRecord := ⟨job.attempt, job.kind, outcome⟩
  let calls := if t.calls.any (·.1 == job.id) then
      t.calls.map fun (id, rs) => if id == job.id then (id, rs ++ [r]) else (id, rs)
    else t.calls ++ [(job.id, [r])]
  { t with calls, finished := t.finished + 1, queue := t.queue.finish job result t.clock }

/-- Run one call of a job a worker took. -/
def call (t : QueueTrial) (job : QueueJob) : QueueTrial :=
  let plan := t.planFor job.id
  let t := t.begin job.id
  match plan with
  | .succeed => t.complete job "ok" (.ok ())
  | .fail => t.complete job "fail" (.error (.plain "transient failure"))
  | .failPermanently => t.complete job "permanent" (.error (.permanent (.plain "fatal failure")))
  | .block =>
    if t.released.contains job.id then
      { t with released := t.released.erase job.id }.complete job "released" (.ok ())
    else { t with blocked := t.blocked ++ [job] }

/-- Let free workers take buffered jobs until none is free or none is left. -/
def pump (t : QueueTrial) : QueueTrial :=
  let rec go (fuel : Nat) (t : QueueTrial) : QueueTrial :=
    match fuel with
    | 0 => t
    | fuel + 1 =>
      match t.queue.next with
      | (none, q) => { t with queue := q }
      | (some job, q) => go fuel ({ t with queue := q }.call job)
  go (t.queue.queued.length + 1) t

/-- Wait until a condition holds, moving time to each next retry within the patience; whether
the condition came to hold. -/
def waitFor (t : QueueTrial) (holds : QueueTrial → Bool) : Bool × QueueTrial :=
  let deadline := t.clock + patience
  let rec go (fuel : Nat) (t : QueueTrial) : Bool × QueueTrial :=
    if holds t then (true, t)
    else match fuel with
      | 0 => (false, t)
      | fuel + 1 =>
        match t.queue.nextRetry? with
        | some due =>
          if due > deadline then (false, t)
          else go fuel ({ t with clock := max t.clock due, queue := t.queue.fire (max t.clock due) }.pump)
        | none => (false, t)
  go (t.queue.retries.length + t.queue.maxRetries * (t.calls.length + t.blocked.length + 1) + 64) t

/-- End a blocked call as cancelled. -/
def cancelBlocked (t : QueueTrial) (job : QueueJob) : QueueTrial :=
  { t with blocked := t.blocked.erase job }.complete job "cancelled" (.error (.plain "context canceled"))

/-- Cancel a job: a blocked call ends as cancelled; a waiting job is dropped later. -/
def cancel (t : QueueTrial) (id : String) : Bool × QueueTrial :=
  let (running, q) := t.queue.cancel id
  let t := { t with queue := q }
  match t.blocked.find? (·.id == id) with
  | some job => (running, (t.cancelBlocked job).pump)
  | none => (running, t)

/-- Release a job's blocked call, or its next one if it has not blocked yet. -/
def release (t : QueueTrial) (id : String) : QueueTrial :=
  match t.blocked.find? (·.id == id) with
  | some job => ({ t with blocked := t.blocked.erase job }.complete job "released" (.ok ())).pump
  | none => if t.released.contains id then t else { t with released := t.released ++ [id] }

/-- Stop the queue: blocked calls end as cancelled and nothing is retried. -/
def stop (t : QueueTrial) : QueueTrial :=
  if !t.queue.started || t.queue.stopped then t
  else
    let t := { t with queue := t.queue.stop }
    t.blocked.foldl (fun t job => t.cancelBlocked job) t

/-- The kind of every job a trial offers. -/
def jobKind : String := "t"

/-- Take one step, answering it. -/
def step (t : QueueTrial) : TrialStep → Json × QueueTrial
  | .start => (.object [], { t with queue := t.queue.start }.pump)
  | .stop => (.object [], t.stop)
  | .offer id wait =>
    match (if wait then t.queue.enqueue else t.queue.tryEnqueue) ⟨id, jobKind, 0⟩ with
    | .ok q => (.object [], { t with queue := q }.pump)
    | .error e => (.object [("error", .string e), ("full", .bool (e == t.queue.fullText))], t)
  | .cancel id => let (running, t) := t.cancel id; (.object [("running", .bool running)], t)
  | .pending => (.object [("pending", .nat t.queue.pending)], t)
  | .awaitBegun n => let (ok, t) := t.waitFor fun t => decide (n ≤ t.entered); (.object [("ok", .bool ok)], t)
  | .awaitFinished n => let (ok, t) := t.waitFor fun t => decide (n ≤ t.finished); (.object [("ok", .bool ok)], t)
  | .release id => (.object [], t.release id)

/-- Run steps in order, answering each, then stop the queue. -/
def run (t : QueueTrial) (steps : List TrialStep) : List Json × QueueTrial :=
  let (answers, t) := steps.foldl (fun (acc, t) st => let (a, t) := t.step st; (acc ++ [a], t)) ([], t)
  (answers, t.stop)

/-- The finished calls by job, each `{attempt, type, outcome}`. -/
def callsJson (t : QueueTrial) : Json :=
  .object (t.calls.map fun (id, rs) => (id, .array (rs.map fun r =>
    .object [("attempt", .nat r.attempt), ("type", .string r.kind), ("outcome", .string r.outcome)])))

end QueueTrial

namespace Json

/-- A call's plan by name: `fail`, `permanent`, `block`, and anything else succeeds. -/
def asCallPlan (j : Json) : Except DecodeError CallPlan := do
  match ← asString j with
  | "fail" => pure .fail
  | "permanent" => pure .failPermanently
  | "block" => pure .block
  | _ => pure .succeed

/-- A step of a trial, `{op, id?, calls?}`; `none` for an unknown `op`. -/
def asTrialStep (j : Json) : Except DecodeError (Option TrialStep) := do
  let j ← asRecord j
  let id ← j.get "id" asString
  let n := (← j.get "calls" asInt).toNat
  pure <| match ← j.get "op" asString with
    | "start" => some .start
    | "stop" => some .stop
    | "enqueue" => some (.offer id true)
    | "try_enqueue" => some (.offer id false)
    | "cancel" => some (.cancel id)
    | "pending" => some .pending
    | "await_entered" => some (.awaitBegun n)
    | "wait_calls" => some (.awaitFinished n)
    | "release" => some (.release id)
    | _ => none

end Json

end Timetabling
