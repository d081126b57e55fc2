import Timetabling.Pipeline.Generation

/-! # Runs sharing one Q-table store

The runs of one orchestrator share its Q-table store. Only the repair stage of a run reaches the
store: it takes the lock named `qtable:` and the normalized scope of its request, loads the scope's
table, trains it, validates the repaired timetable and saves the trained table, and lets the lock
go when the stage ends. The store answers each load and each save under its own lock, so between a
run's load and its save any section of any other run may come.

The runs are then a transition system whose steps are those sections: a run starts; a run stops
before it holds the lock, because a stage before repair failed or its context ended while it
waited; a run takes the lock and loads; a run ends its repair stage, saving on the store as it is
by then, and goes on to its end. A run that took the lock sees the store through a shelf that
answers its load with the table it loaded then, and makes its save on the store it is given.
The stages before repair touch no store, so a run's outcome is computed, whole, at the end of its
repair stage. Each run has its own memory probe and observer, and may stop in any way before it
holds the lock. -/

namespace Timetabling

/-- The lock the repair stage of a run of `req` holds: one per normalized scope. -/
def RunRequest.tableLock (req : RunRequest) : String :=
  "qtable:" ++ normalizeScope req.scope

/-- The store as a run that holds its scope's lock sees it: a load answers the table the run
loaded when it took the lock, and a save goes to the store as the in-memory store takes it. -/
def TableStore.shelfLoaded (loaded : QTable) : TableShelf TableStore :=
  ⟨fun st _ => (.ok loaded, st), TableStore.shelf.save⟩

/-- A run as it is started: its memory probe, its request and the observer of its events. -/
structure RunCall (σ : Type) where
  probe : Option MemoryProbe
  request : RunRequest
  observer : Observer σ

/-- How far a run sharing the store got. -/
inductive Progress where
  /-- In the stages before repair, or waiting for the lock of its scope. -/
  | waiting
  /-- Holding the lock of its scope, having loaded this table. -/
  | holding (loaded : QTable)
  /-- Ended, with this result. -/
  | ended (result : Except RunFailure RunResult)

/-- What a run that loaded `loaded` comes to when it ends its repair stage on the store `st`. -/
def RunCall.finish {σ : Type} (config : PipelineConfig) (l : RunCall σ) (loaded : QTable)
    (st : TableStore) : RunOutcome σ TableStore :=
  generate config l.probe (TableStore.shelfLoaded loaded) st l.request l.observer

/-- The store and the runs started on it, in the order they started. -/
structure Runs (σ : Type) where
  store : TableStore
  runs : List (RunCall σ × Progress) := []

namespace Runs

variable {σ : Type}

/-- Whether some run holds the lock `lock`. -/
def Holds (w : Runs σ) (lock : String) : Prop :=
  ∃ l t, (l, Progress.holding t) ∈ w.runs ∧ l.request.tableLock = lock

/-- One section of one run. -/
inductive Step (config : PipelineConfig) : Runs σ → Runs σ → Prop where
  /-- A run starts. -/
  | start {w : Runs σ} (l : RunCall σ) : Step config w { w with runs := w.runs ++ [(l, .waiting)] }
  /-- A run stops before it holds the lock of its scope. -/
  | abandon {w : Runs σ} {pre post : List (RunCall σ × Progress)} {l : RunCall σ}
      (failure : RunFailure) (h : w.runs = pre ++ (l, .waiting) :: post) :
      Step config w { w with runs := pre ++ (l, .ended (.error failure)) :: post }
  /-- A run takes the lock of its scope, which no run holds, and loads the scope's table. -/
  | acquire {w : Runs σ} {pre post : List (RunCall σ × Progress)} {l : RunCall σ}
      (h : w.runs = pre ++ (l, .waiting) :: post) (free : ¬ w.Holds l.request.tableLock) :
      Step config w { w with runs := pre ++ (l, .holding (w.store.load l.request.scope)) :: post }
  /-- A run ends its repair stage, saving on the store as it is, lets the lock go and ends. -/
  | release {w : Runs σ} {pre post : List (RunCall σ × Progress)} {l : RunCall σ} {t : QTable}
      (h : w.runs = pre ++ (l, .holding t) :: post) :
      Step config w
        { store := (l.finish config t w.store).store
          runs := pre ++ (l, .ended (l.finish config t w.store).result) :: post }

/-- The states runs reach from a store no run has touched, whatever the interleaving of their
sections. -/
inductive Reachable (config : PipelineConfig) (st : TableStore) : Runs σ → Prop where
  | init : Reachable config st { store := st }
  | step {w w' : Runs σ} : Reachable config st w → Step config w w' → Reachable config st w'

end Runs

end Timetabling
