import Timetabling.Repair.Observation
import Timetabling.Repair.Moves
import Timetabling.Random.Pcg

/-! # The repair agent

Repair tries to place the sessions that earlier stages left out, with moves chosen by tabular
Q-learning. Each iteration picks a missing session at random, observes its situation, takes the
table's best move for it (or, with the exploration rate, a random move), and scores the outcome:
`+1` per session no longer missing, `-5` per session newly missing, and `+0.2` when the variance
of staff loads fell by more than `1e-9`. The table learns
`Q(s, a) += α (reward + γ · max Q(s', ·) − Q(s, a))`, where `s'` is the situation of the first
session still missing (no term when none is).

The run keeps the best timetable seen: fewest missing sessions, then lowest load variance. It
ends after the given iterations or when nothing is missing, and marks each session of the best
timetable still missing without a reason with its dominant conflict. A timetable with nothing
missing is returned as it is, and the table is left alone. -/

namespace Timetabling

/-- The knobs of a repair run. -/
structure RepairConfig where
  iterations : Int := 0
  learningRate : Float := 0
  discount : Float := 0
  epsilonStart : Float := 0
  epsilonMin : Float := 0
  annealFraction : Float := 0
  seed : Nat := 0
deriving Repr

/-- The exploration rate of an iteration. -/
def RepairConfig.epsilon (c : RepairConfig) (it : Nat) : Float :=
  explorationRate c.iterations c.epsilonStart c.epsilonMin c.annealFraction it

/-- The move of an iteration, with the random state after it: a random move with the iteration's
exploration rate, and otherwise the table's best move in the situation. -/
def RepairConfig.choose (cfg : RepairConfig) (table : QTable) (situation : Situation) (it : Nat)
    (rng : Pcg) : Move × Pcg :=
  let (r, rng) := rng.unit
  if r < cfg.epsilon it then
    let (j, rng) := rng.below Move.all.length
    (Move.ofIndex j, rng)
  else (Move.ofIndex (table.best situation).1, rng)

/-- What a repair run did; `moves` counts each move by name, in order of first use. -/
structure RepairStats where
  initialConflicts : Nat := 0
  remainingConflicts : Nat := 0
  iterations : Nat := 0
  updates : Nat := 0
  reassignments : Nat := 0
  totalReward : Float := 0
  finalEpsilon : Float := 0
  moves : List (String × Nat) := []
deriving Repr

/-- Count one more use of a move. -/
def RepairStats.count (s : RepairStats) (name : String) : RepairStats :=
  if s.moves.any (·.1 == name) then
    { s with moves := s.moves.map fun (k, n) => if k == name then (k, n + 1) else (k, n) }
  else { s with moves := s.moves ++ [(name, 1)] }

/-- The reward of a move: one per resolved conflict, minus five per introduced one, plus a fifth
when the load balance improved. -/
def Shortfall.reward (before after : List Shortfall) (loadImproved : Bool) : Float :=
  let was := before.map (·.key)
  let now := after.map (·.key)
  let resolved := (was.filter fun k => !now.contains k).length
  let introduced := (now.filter fun k => !was.contains k).length
  moveReward resolved introduced loadImproved

/-- A variance change smaller than this is no change. -/
def varianceEpsilon : Float := 1e-9

/-- The state of a repair run between iterations. -/
structure RepairState where
  work : Timetable
  table : QTable
  conflicts : List Shortfall
  best : Timetable
  bestMissing : Nat
  bestVariance : Float
  rng : Pcg
  stats : RepairStats

/-- How a repair run reports and can be stopped: an observer state, its update after each
iteration with the iteration number, the iteration count and the sessions still missing, and
whether it asks to stop. -/
structure RepairWatch (σ : Type) where
  state : σ
  note : σ → Nat → Int → Nat → σ
  stopped : σ → Bool

/-- Why a repair run ended early: stopped before an iteration, or a fault while observing. -/
inductive RepairHalt where
  | stopped (iteration : Nat)
  | fault (message : String)

/-- The best value the table gives the situation of the first session still missing, zero when
none is. -/
def QTable.lookahead (q : QTable) (d : Domain) (work : Timetable) : List Shortfall → Except String Float
  | [] => pure 0
  | c :: _ => do pure (q.best (← work.observe d c)).2

namespace RepairState

/-- The state after an iteration's move: the new working timetable, table and random state, the
counts, and the best timetable seen, which the new one replaces when it misses fewer sessions, or
as many with a load variance lower by more than `varianceEpsilon`. -/
def record (s : RepairState) (cfg : RepairConfig) (it : Nat) (move : Move) (moved : Bool)
    (work : Timetable) (conflicts : List Shortfall) (reward : Float) (table : QTable) (rng : Pcg) :
    RepairState :=
  let varianceAfter := work.loadVariance
  let stats := { s.stats with
    iterations := s.stats.iterations + 1
    updates := s.stats.updates + 1
    reassignments := if moved then s.stats.reassignments + 1 else s.stats.reassignments
    totalReward := s.stats.totalReward + reward
    finalEpsilon := cfg.epsilon it }
  let stats := stats.count move.name
  let better := conflicts.length < s.bestMissing ||
    (conflicts.length == s.bestMissing && varianceAfter < s.bestVariance - varianceEpsilon)
  { work, table, conflicts, rng, stats
    best := if better then work else s.best
    bestMissing := if better then conflicts.length else s.bestMissing
    bestVariance := if better then varianceAfter else s.bestVariance }

/-- One iteration. -/
def step (cfg : RepairConfig) (d : Domain) (s : RepairState) (it : Nat) : Except String RepairState := do
  let (i, rng) := s.rng.below s.conflicts.length
  let target := s.conflicts.getD i ⟨default, ""⟩
  let situation ← s.work.observe d target
  let (move, rng) := cfg.choose s.table situation it rng
  let (moved, work) := s.work.applyMove d move target.key
  let conflicts := work.shortfalls d
  let reward := Shortfall.reward s.conflicts conflicts
    (work.loadVariance < s.work.loadVariance - varianceEpsilon)
  let maxNext ← s.table.lookahead d work conflicts
  let table ← s.table.update situation move.index reward maxNext cfg.learningRate cfg.discount
  pure (s.record cfg it move moved work conflicts reward table rng)

/-- Iterate from `it` on; `fuel` bounds the iterations. -/
def loop {σ : Type} (cfg : RepairConfig) (d : Domain) :
    Nat → Nat → RepairState → RepairWatch σ → Except (RepairHalt × RepairState) RepairState × RepairWatch σ
  | 0, _, s, w => (.ok s, w)
  | fuel + 1, it, s, w =>
    if (it : Int) ≥ cfg.iterations || s.conflicts.isEmpty then (.ok s, w)
    else if w.stopped w.state then (.error (.stopped it, s), w)
    else match s.step cfg d it with
      | .error msg => (.error (.fault msg, s), w)
      | .ok s =>
        let w := { w with state := w.note w.state (it + 1) cfg.iterations s.conflicts.length }
        loop cfg d fuel (it + 1) s w

end RepairState

/-- The state a repair run starts from: the timetable is both the working and the best one, and
its missing sessions are the conflicts. -/
def RepairState.init (t : Timetable) (d : Domain) (table : QTable) (cfg : RepairConfig) :
    RepairState :=
  let conflicts := t.shortfalls d
  { work := t, table, conflicts, best := t, bestMissing := conflicts.length,
    bestVariance := t.loadVariance, stats := { initialConflicts := conflicts.length }
    rng := Pcg.seeded cfg.seed (Pcg.xor cfg.seed 0x5851f42d4c957f2d) }

/-- Repair a timetable with a Q-table. The result is the repaired timetable, the updated table
and the run's counts; or why the run ended early, with the counts and table so far. -/
def Timetable.repair {σ : Type} (t : Timetable) (d : Domain) (table : QTable) (cfg : RepairConfig)
    (w : RepairWatch σ) :
    Except (RepairHalt × RepairStats × QTable) (Timetable × QTable × RepairStats) × RepairWatch σ :=
  let conflicts := t.shortfalls d
  if conflicts.isEmpty then (.ok (t, table, { initialConflicts := conflicts.length }), w)
  else
    match RepairState.loop cfg d cfg.iterations.toNat 0 (RepairState.init t d table cfg) w with
    | (.error (h, s), w) => (.error (h, s.stats, s.table), w)
    | (.ok s, w) =>
      let best := s.best.missing.foldl (fun b k =>
        if (b.reason? k).isSome then b else b.markUnscheduled k (b.dominantBlocker d k).name) s.best
      (.ok (best, s.table, { s.stats with remainingConflicts := s.bestMissing }), w)

end Timetabling
