import Timetabling.Api.Error

/-! # Job queues

A job queue hands buffered jobs to a fixed number of workers. It has to be started before it
takes jobs; a job offered without waiting is refused when the buffer is full. A worker takes the
oldest buffered job, unless that job was cancelled while it waited, in which case the job is
dropped. A job whose handler fails is tried again after the retry delay, with its attempt count
raised, unless the failure is permanent or the attempts are used up. A job offered by waiting,
and a retry whose delay is over, that find the buffer full wait for room: each job a worker takes
lets the oldest of them into the buffer, so the buffer and the jobs waiting for it form one line.
Stopping the queue cancels what runs and forgets the retries still waiting, for their delay or
for room.

This module keeps the queue's bookkeeping; running the handlers is up to the owner of the
queue, who asks for the next job a free worker takes and reports how each handler ended. Times
are milliseconds on the owner's clock. -/

namespace Timetabling

/-- A job as the queue carries it: its identifier, its kind and how many times it has failed. -/
structure QueueJob where
  id : String
  kind : String
  attempt : Nat := 0
deriving DecidableEq, Repr, Inhabited

/-- The settings of a queue; settings that are not positive take defaults (one worker, a buffer
of four jobs per worker, no retries, a retry delay of one second). -/
structure QueueConfig where
  workers : Int := 0
  bufferSize : Int := 0
  maxRetries : Int := 0
  retryDelay : Int := 0
deriving Repr, Inhabited

/-- The state of a queue. -/
structure JobQueue where
  name : String
  workers : Nat
  capacity : Nat
  maxRetries : Nat
  retryDelay : Nat
  started : Bool := false
  /-- Whether the queue was stopped; a stopped queue takes nothing more. -/
  stopped : Bool := false
  /-- Buffered jobs, oldest first; never more than the capacity. -/
  buffer : List QueueJob := []
  /-- Jobs waiting for room in the full buffer, oldest first. -/
  blocked : List QueueJob := []
  /-- Jobs whose handlers are running. -/
  running : List QueueJob := []
  /-- Jobs cancelled while they waited; they are dropped when a worker reaches them. -/
  dropped : List String := []
  /-- Retries waiting for their time. -/
  retries : List (Nat × QueueJob) := []
deriving Repr, Inhabited

namespace JobQueue

/-- A new queue with its settings, defaults filled in. -/
def create (name : String) (cfg : QueueConfig) : JobQueue :=
  let workers := if cfg.workers ≤ 0 then 1 else cfg.workers.toNat
  { name, workers
    capacity := if cfg.bufferSize ≤ 0 then workers * 4 else cfg.bufferSize.toNat
    maxRetries := cfg.maxRetries.toNat
    retryDelay := if cfg.retryDelay ≤ 0 then 1000 else cfg.retryDelay.toNat }

/-- Start the queue; starting it again changes nothing. -/
def start (q : JobQueue) : JobQueue :=
  { q with started := true }

/-- Why a queue takes no job: it was never started, or it was stopped. -/
def refusal? (q : JobQueue) : Option String :=
  if !q.started then some ("queue " ++ q.name ++ " not started")
  else if q.stopped then some ("queue " ++ q.name ++ " stopped: context canceled")
  else none

/-- The text of the error of a full buffer. -/
def fullText (q : JobQueue) : String :=
  "queue " ++ q.name ++ ": queue full"

/-- The jobs in line for a worker: the buffered ones, then those waiting for room. -/
def queued (q : JobQueue) : List QueueJob := q.buffer ++ q.blocked

/-- Line jobs up for the workers: the first `capacity` of them are buffered, the rest wait for
room. -/
def lineUp (q : JobQueue) (line : List QueueJob) : JobQueue :=
  { q with buffer := line.take q.capacity, blocked := line.drop q.capacity }

/-- Offer a job without waiting: refused when the queue is not running or its buffer is full. -/
def tryEnqueue (q : JobQueue) (job : QueueJob) : Except String JobQueue :=
  match q.refusal? with
  | some e => .error e
  | none =>
    if q.buffer.length ≥ q.capacity then .error q.fullText
    else .ok { q with buffer := q.buffer ++ [job] }

/-- Add a job, waiting for room: it is refused only when the queue is not running. -/
def enqueue (q : JobQueue) (job : QueueJob) : Except String JobQueue :=
  match q.refusal? with
  | some e => .error e
  | none => .ok (q.lineUp (q.queued ++ [job]))

/-- Cancel a job: a running job is reported as running (its owner stops its handler), any other
is marked to be dropped when a worker reaches it. -/
def cancel (q : JobQueue) (id : String) : Bool × JobQueue :=
  if q.running.any (·.id == id) then (true, q)
  else (false, if q.dropped.contains id then q else { q with dropped := q.dropped ++ [id] })

/-- The number of buffered jobs. -/
def pending (q : JobQueue) : Nat := q.buffer.length

/-- Whether a worker is free to take a job. -/
def hasFreeWorker (q : JobQueue) : Bool :=
  q.started && !q.stopped && q.running.length < q.workers

/-- Drop the jobs at the head of the buffer that were cancelled while they waited. -/
def skipDropped (buffer : List QueueJob) (dropped : List String) : List QueueJob × List String :=
  match buffer with
  | j :: rest => if dropped.contains j.id then skipDropped rest (dropped.erase j.id) else (buffer, dropped)
  | [] => ([], dropped)

/-- A free worker takes the next job, dropping the cancelled jobs it meets on the way; each job
taken from the buffer, or dropped, makes room for the oldest job waiting for it. No job when no
worker is free or nothing is left in line. -/
def next (q : JobQueue) : Option QueueJob × JobQueue :=
  if !q.hasFreeWorker then (none, q)
  else
    let (line, dropped) := skipDropped q.queued q.dropped
    match line with
    | [] => (none, { q.lineUp [] with dropped })
    | j :: rest => (some j, { q.lineUp rest with dropped, running := q.running ++ [j] })

/-- Record how a running job's handler ended at a time: a failure that is not permanent, with
attempts left, is retried after the delay (unless the queue was stopped). -/
def finish (q : JobQueue) (job : QueueJob) (result : Except Fault Unit) (now : Nat) : JobQueue :=
  let q := { q with running := q.running.erase job }
  match result with
  | .ok () => q
  | .error f =>
    let next := { job with attempt := job.attempt + 1 }
    if f.isPermanent || next.attempt > q.maxRetries || q.stopped then q
    else { q with retries := q.retries ++ [(now + q.retryDelay, next)] }

/-- The time of the earliest waiting retry. -/
def nextRetry? (q : JobQueue) : Option Nat :=
  q.retries.foldl (fun acc (t, _) => match acc with
    | some a => some (min a t)
    | none => some t) none

/-- Put the retries due by a time back in line, earliest first: into the buffer while it has
room, and to wait for room after that. -/
def fire (q : JobQueue) (now : Nat) : JobQueue :=
  let due := q.retries.filter (·.1 ≤ now)
  let due := due.mergeSort (fun a b => a.1 ≤ b.1)
  { q.lineUp (q.queued ++ due.map (·.2)) with retries := q.retries.filter (·.1 > now) }

/-- Stop the queue: nothing more is taken, and the retries still waiting, for their delay or for
room, are forgotten. Stopping a queue that never started changes nothing. -/
def stop (q : JobQueue) : JobQueue :=
  if !q.started then q else { q with stopped := true, retries := [], blocked := [] }

end JobQueue

end Timetabling
