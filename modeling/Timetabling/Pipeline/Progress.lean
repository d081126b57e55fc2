import Timetabling.Run.Stage

/-! # Progress of a generation run

A run reports its progress as a stream of events: each names the job, the stage, the overall
percentage, a short description of the step, and optional details. An observer receives the
events in order and may ask the run to stop; the run notices at its next check. -/

namespace Timetabling

/-- A value among an event's details. -/
inductive DetailValue where
  | text (s : String)
  | count (n : Int)
  | real (x : Float)
deriving Repr

/-- One progress report. `detail` is `none` for an event without details. -/
structure ProgressEvent where
  jobId : String
  stage : Stage
  percent : Float
  step : String
  detail : Option (List (String × DetailValue)) := none
deriving Repr

/-- Whoever follows a run: an observer state, what an event does to it, and whether it asks the
run to stop. -/
structure Observer (σ : Type) where
  state : σ
  receive : σ → ProgressEvent → σ
  stopped : σ → Bool

namespace Observer

/-- Deliver one event. -/
def deliver {σ : Type} (o : Observer σ) (e : ProgressEvent) : Observer σ :=
  { o with state := o.receive o.state e }

/-- Whether the observer asks the run to stop. -/
def halted {σ : Type} (o : Observer σ) : Bool :=
  o.stopped o.state

end Observer

/-- Whether a run may move from one stage to another: never out of a terminal stage, always
into failure or cancellation, and otherwise only to the next stage. -/
def Stage.canMove (source target : Stage) : Bool :=
  !source.terminal && (target == .failed || target == .cancelled || source.next? == some target)

end Timetabling
