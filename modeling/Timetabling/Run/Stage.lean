/-! # Run stages

A run moves forward through initializing, clustering, solving, refining, repairing and
finalizing to completed, and may fail or be cancelled from any stage that is not terminal.
Each stage covers a band of the overall progress percentage. Stages are named by text, since
progress reports carry the names; a name outside the list has no successor. -/

namespace Timetabling

/-- The stages of a run. -/
inductive Stage where
  | initializing
  | clustering
  | solving
  | refining
  | repairing
  | finalizing
  | completed
  | failed
  | cancelled
deriving DecidableEq, Repr, Inhabited

namespace Stage

/-- The name of a stage. -/
def name : Stage → String
  | .initializing => "initializing"
  | .clustering => "clustering"
  | .solving => "solving"
  | .refining => "refining"
  | .repairing => "repairing"
  | .finalizing => "finalizing"
  | .completed => "completed"
  | .failed => "failed"
  | .cancelled => "cancelled"

/-- Every stage. -/
def all : List Stage :=
  [.initializing, .clustering, .solving, .refining, .repairing, .finalizing, .completed, .failed,
   .cancelled]

/-- The stage of a name. -/
def ofName? (s : String) : Option Stage :=
  all.find? (·.name == s)

/-- Whether a stage ends a run. -/
def terminal : Stage → Bool
  | .completed | .failed | .cancelled => true
  | _ => false

/-- The stage that follows on success. -/
def next? : Stage → Option Stage
  | .initializing => some .clustering
  | .clustering => some .solving
  | .solving => some .refining
  | .refining => some .repairing
  | .repairing => some .finalizing
  | .finalizing => some .completed
  | _ => none

/-- The band of progress percentages a stage covers. -/
def band? : Stage → Option (Float × Float)
  | .initializing => some (0, 5)
  | .clustering => some (5, 15)
  | .solving => some (15, 55)
  | .refining => some (55, 80)
  | .repairing => some (80, 95)
  | .finalizing => some (95, 100)
  | .completed => some (100, 100)
  | _ => none

/-- The progress percentage at a fraction of a stage, the fraction clamped to `[0, 1]`; zero for a
stage without a band. -/
def percentWithin (s : Stage) (fraction : Float) : Float :=
  match s.band? with
  | none => 0
  | some (lo, hi) =>
    let f := if fraction < 0 then 0 else if fraction > 1 then 1 else fraction
    lo + (hi - lo) * f

end Stage

/-- Whether a run may move between two stages named by text: never out of a terminal stage,
always into failure or cancellation, and otherwise only to the next stage. A name outside the
list has no successor, which is written as the empty name. -/
def canTransition (source target : String) : Bool :=
  let terminal := match Stage.ofName? source with
    | some s => s.terminal
    | none => false
  let successor := match Stage.ofName? source >>= Stage.next? with
    | some s => s.name
    | none => ""
  !terminal && (target == "failed" || target == "cancelled" || successor == target)

/-- Whether a stage name is terminal. -/
def isTerminalName (s : String) : Bool :=
  match Stage.ofName? s with
  | some s => s.terminal
  | none => false

/-- Why a run stopped: resources ran out, it was cancelled, or a stage broke the timetable's
invariant. -/
inductive FailureKind where
  | resourceExhausted
  | cancelled
  | invariantViolation
deriving DecidableEq, Repr

/-- The name of a failure kind. -/
def FailureKind.name : FailureKind → String
  | .resourceExhausted => "resource_exhausted"
  | .cancelled => "cancelled"
  | .invariantViolation => "invariant_violation"

/-- The text of a run failure: its kind, the stage it stopped after, and the cause if any. -/
def failureMessage (kind lastStage : String) (cause : Option String) : String :=
  "pipeline " ++ kind ++ " after " ++ lastStage ++ (match cause with
    | some c => ": " ++ c
    | none => "")

end Timetabling
