import Timetabling.Number.Truncate
import Timetabling.Text.Quoted

/-! # Solving strategies

A strategy fixes how hard the engine works: how many workers, how large a cluster the exact
search may take, and the sizes of the genetic and repair phases. It is chosen from the hardware
tier (by memory) and a quality mode, which scales the effort: half for `fast`, double for
`best`. Under memory pressure a strategy degrades: greedy search only and halved effort. -/

namespace Timetabling

/-- The parsed quality modes. -/
inductive Quality where
  | fast
  | balanced
  | best
deriving DecidableEq, Repr

namespace Quality

/-- The name of a mode. -/
def name : Quality → String
  | .fast => "fast"
  | .balanced => "balanced"
  | .best => "best"

/-- Read a mode, ignoring case and surrounding blanks; empty text means `balanced`. -/
def parse (raw : String) : Except String Quality :=
  match Text.lower (Text.trimSpace raw) with
  | "fast" => .ok .fast
  | "balanced" | "" => .ok .balanced
  | "best" => .ok .best
  | _ => .error ("unknown quality mode " ++ Text.quoted raw)

/-- The effort factor of a mode named by raw text: only the exact names `fast` and `best` scale. -/
def scaleOf (raw : String) : Float :=
  if raw == "fast" then 0.5 else if raw == "best" then 2 else 1

end Quality

/-- Hardware tiers, by memory. -/
inductive Tier where
  | veryLow
  | low
  | mid
  | high
deriving DecidableEq, Repr

namespace Tier

/-- The name of a tier. -/
def name : Tier → String
  | .veryLow => "very_low"
  | .low => "low"
  | .mid => "mid"
  | .high => "high"

/-- The tier of a name. -/
def ofName? : String → Option Tier
  | "very_low" => some .veryLow
  | "low" => some .low
  | "mid" => some .mid
  | "high" => some .high
  | _ => none

/-- Every tier, smallest first. -/
def all : List Tier := [.veryLow, .low, .mid, .high]

end Tier

/-- What the engine knows about the machine. -/
structure HardwareProfile where
  cpuCores : Int := 0
  totalMemory : Nat := 0
  availableMemory : Nat := 0
  hasGpu : Bool := false
deriving Repr

/-- One gibibyte. -/
def gib : Nat := Nat.pow 2 30

namespace HardwareProfile

/-- The tier of a machine by its available memory, or its total memory when the available
amount is unknown (zero): below 2 GiB, 8 GiB and 32 GiB. -/
def tier (p : HardwareProfile) : Tier :=
  let memory := if p.availableMemory = 0 then p.totalMemory else p.availableMemory
  if memory < 2 * gib then .veryLow
  else if memory < 8 * gib then .low
  else if memory < 32 * gib then .mid
  else .high

end HardwareProfile

/-- The effort settings of one tier. Durations are in nanoseconds. -/
structure TierSettings where
  workers : Int := 0
  maxClusterSize : Int := 0
  exact : Bool := false
  solverTimeout : Int := 0
  nodeBudget : Int := 0
  populationSize : Int := 0
  generations : Int := 0
  repairIterations : Int := 0
deriving Repr

/-- Settings for every tier. -/
structure StrategyTable where
  veryLow : TierSettings
  low : TierSettings
  mid : TierSettings
  high : TierSettings
deriving Repr

namespace StrategyTable

/-- The settings of a tier. -/
def get (t : StrategyTable) : Tier → TierSettings
  | .veryLow => t.veryLow
  | .low => t.low
  | .mid => t.mid
  | .high => t.high

/-- Replace the settings of a tier. -/
def set (t : StrategyTable) (tier : Tier) (s : TierSettings) : StrategyTable :=
  match tier with
  | .veryLow => { t with veryLow := s }
  | .low => { t with low := s }
  | .mid => { t with mid := s }
  | .high => { t with high := s }

/-- The built-in table. -/
def builtin : StrategyTable where
  veryLow := { workers := 1, maxClusterSize := 8, exact := false, solverTimeout := 500000000,
               nodeBudget := 5000, populationSize := 6, generations := 10, repairIterations := 50 }
  low := { workers := 2, maxClusterSize := 16, exact := true, solverTimeout := 2000000000,
           nodeBudget := 50000, populationSize := 12, generations := 30, repairIterations := 150 }
  mid := { workers := 4, maxClusterSize := 24, exact := true, solverTimeout := 5000000000,
           nodeBudget := 200000, populationSize := 24, generations := 60, repairIterations := 300 }
  high := { workers := 8, maxClusterSize := 40, exact := true, solverTimeout := 10000000000,
            nodeBudget := 1000000, populationSize := 40, generations := 100, repairIterations := 600 }

@[simp] theorem get_set_self (t : StrategyTable) (tier : Tier) (s : TierSettings) :
    (t.set tier s).get tier = s := by
  cases tier <;> rfl

end StrategyTable

/-- How the exact phase solves clusters. -/
inductive SolverMode where
  | exact
  | greedy
deriving DecidableEq, Repr

/-- The name of a solver mode. -/
def SolverMode.name : SolverMode → String
  | .exact => "exact"
  | .greedy => "greedy"

/-- A complete strategy. The tier, quality and solver mode are kept as the text they were
chosen with, since a strategy may also be given whole by its caller. -/
structure StrategyConfig where
  tier : String := ""
  quality : String := ""
  clusterWorkers : Int := 0
  solverWorkers : Int := 0
  maxClusterSize : Int := 0
  solverMode : String := ""
  solverTimeout : Int := 0
  solverNodeBudget : Int := 0
  populationSize : Int := 0
  generations : Int := 0
  plateauGenerations : Int := 0
  tournamentSize : Int := 0
  crossoverRate : Float := 0
  mutationRate : Float := 0
  repairIterations : Int := 0
  learningRate : Float := 0
  discount : Float := 0
  epsilonStart : Float := 0
  epsilonMin : Float := 0
  annealFraction : Float := 0
  degraded : Bool := false
deriving Repr

/-- A worker count within the machine's cores: at least one core is assumed, and a request that
is not positive or exceeds the cores takes all of them. -/
def clampWorkers (requested cores : Int) : Int :=
  let cores := if cores ≤ 0 then 1 else cores
  if requested ≤ 0 ∨ requested > cores then cores else requested

/-- A setting scaled by a factor, its fraction dropped, and raised to a floor. -/
def scaleSetting (value : Int) (factor : Float) (floor : Int) : Int :=
  maxInt (truncToInt64 (Float.ofInt value * factor)) floor

namespace StrategyConfig

/-- Choose a strategy from a table for a machine and a quality named by raw text. -/
def select (table : StrategyTable) (p : HardwareProfile) (quality : String) : StrategyConfig :=
  let tier := p.tier
  let s := table.get tier
  let scale := Quality.scaleOf quality
  let population := scaleSetting s.populationSize scale 4
  let population := if p.hasGpu then wrapInt64 (population + population.tdiv 2) else population
  { tier := tier.name
    quality
    clusterWorkers := clampWorkers s.workers p.cpuCores
    solverWorkers := clampWorkers s.workers p.cpuCores
    maxClusterSize := s.maxClusterSize
    solverMode := if s.exact then "exact" else "greedy"
    solverTimeout := truncToInt64 (Float.ofInt s.solverTimeout * scale)
    solverNodeBudget := scaleSetting s.nodeBudget scale 1000
    populationSize := population
    generations := scaleSetting s.generations scale 2
    plateauGenerations := scaleSetting (s.generations.tdiv 4) 1 2
    tournamentSize := 3
    crossoverRate := 0.7
    mutationRate := 0.2
    repairIterations := scaleSetting s.repairIterations scale 10
    learningRate := 0.1
    discount := 0.9
    epsilonStart := 0.3
    epsilonMin := 0.05
    annealFraction := 0.6 }

/-- The strategy under memory pressure: greedy search, and half the population, generations,
plateau and repair iterations, each kept at least at its floor. -/
def degrade (c : StrategyConfig) : StrategyConfig :=
  { c with
    solverMode := "greedy"
    populationSize := maxInt (c.populationSize.tdiv 2) 2
    generations := maxInt (c.generations.tdiv 2) 1
    plateauGenerations := maxInt (c.plateauGenerations.tdiv 2) 1
    repairIterations := maxInt (c.repairIterations.tdiv 2) 1
    degraded := true }

@[simp] theorem degrade_degraded (c : StrategyConfig) : c.degrade.degraded = true := rfl

@[simp] theorem degrade_solverMode (c : StrategyConfig) : c.degrade.solverMode = "greedy" := rfl

end StrategyConfig

/-- Read a boolean written as `1`, `t`, `T`, `TRUE`, `true`, `True` or their false forms. -/
def parseBoolText? : String → Option Bool
  | "1" | "t" | "T" | "TRUE" | "true" | "True" => some true
  | "0" | "f" | "F" | "FALSE" | "false" | "False" => some false
  | _ => none

/-- Build a hardware profile from a memory probe: total and available memory, both capped by a
positive limit. The override text decides whether a GPU is reported when it reads as a boolean;
otherwise the presence of a device does. The probe's failure is the answer's failure. -/
def HardwareProfile.detect (cores : Int) (probe : Except String (Nat × Nat)) (limit : Nat)
    (gpuOverride : String) (gpuPresent : Bool) : Except String HardwareProfile :=
  match probe with
  | .error e => .error ("probe memory: " ++ e)
  | .ok (total, available) =>
    let cap (v : Nat) := if limit > 0 ∧ v > limit then limit else v
    .ok { cpuCores := cores, totalMemory := cap total, availableMemory := cap available
          hasGpu := (parseBoolText? gpuOverride).getD gpuPresent }

end Timetabling
