import Timetabling.Pipeline.Generation
import Timetabling.Timetable.Json

/-! # The JSON forms of run reports

How strategies, statistics and quality reports are written in answers. Keys are the
snake-case field names; a stage report leaves out empty counts, a run leaves out the stage it
degraded before when it did not degrade and writes `null` for its stages before the first one
finished, and repair statistics that were never collected write their move counts as `null`. Timings are not part of these forms.

The settings of a run are read back from the same snake-case names. -/

namespace Timetabling

namespace Json

/-- An object of counts. -/
def counts (xs : List (String × Nat)) : Json :=
  .obj (xs.map fun (k, n) => (k, .nat n))

end Json

/-- The JSON form of a strategy. -/
def StrategyConfig.toJson (c : StrategyConfig) : Json := .obj [
  ("tier", .string c.tier), ("quality", .string c.quality), ("cluster_workers", .int c.clusterWorkers),
  ("solver_workers", .int c.solverWorkers), ("max_cluster_size", .int c.maxClusterSize),
  ("solver_mode", .string c.solverMode), ("solver_timeout", .int c.solverTimeout),
  ("solver_node_budget", .int c.solverNodeBudget), ("population_size", .int c.populationSize),
  ("generations", .int c.generations), ("plateau_generations", .int c.plateauGenerations),
  ("tournament_size", .int c.tournamentSize), ("crossover_rate", .float c.crossoverRate),
  ("mutation_rate", .float c.mutationRate), ("repair_iterations", .int c.repairIterations),
  ("learning_rate", .float c.learningRate), ("discount", .float c.discount),
  ("epsilon_start", .float c.epsilonStart), ("epsilon_min", .float c.epsilonMin),
  ("anneal_fraction", .float c.annealFraction), ("degraded", .bool c.degraded)]

/-- The JSON form of clustering statistics. -/
def ClusterStats.toJson (s : ClusterStats) : Json := .obj [("courses", .nat s.courses),
  ("edges", .nat s.edges), ("dropped_edges", .nat s.droppedEdges), ("communities", .nat s.communities),
  ("clusters", .nat s.clusters), ("oversized", .nat s.oversized), ("isolated", .nat s.isolated),
  ("modularity", .float s.modularity)]

/-- The JSON form of merge statistics. -/
def MergeStats.toJson (m : MergeStats) : Json := .obj [("committed", .nat m.committed),
  ("collisions", .nat m.collisions), ("replaced", .nat m.replaced), ("unscheduled", .nat m.unscheduled)]

/-- The JSON form of a fitness. -/
def Fitness.toJson (f : Fitness) : Json := .obj [("total", .float f.total),
  ("faculty_preference", .float f.facultyPreference), ("room_utilization", .float f.roomUtilization),
  ("peak_spread", .float f.peakSpread)]

/-- The JSON form of refinement statistics. -/
def RefineStats.toJson (s : RefineStats) : Json := .obj [("generations", .nat s.generations),
  ("population", .int s.population), ("initial_fitness", .float s.initialFitness),
  ("final_fitness", .float s.finalFitness), ("plateaued", .bool s.plateaued), ("adopted", .nat s.adopted),
  ("mutations", .nat s.mutations)]

/-- The JSON form of repair statistics; absent statistics are all zero, with `null` move counts. -/
def RepairStats.toJson (s : Option RepairStats) : Json :=
  let z := s.getD {}
  .obj [("initial_conflicts", .nat z.initialConflicts), ("remaining_conflicts", .nat z.remainingConflicts),
    ("iterations", .nat z.iterations), ("updates", .nat z.updates), ("reassignments", .nat z.reassignments),
    ("total_reward", .float z.totalReward), ("final_epsilon", .float z.finalEpsilon),
    ("actions", match s with
      | some s => Json.counts s.moves
      | none => .null)]

/-- The JSON form of a stage report. -/
def StageReport.toJson (r : StageReport) : Json :=
  .obj ([("stage", .string r.stage.name), ("mode", .string (if r.exclusive then "exclusive" else "parallel")),
    ("scheduled", .nat r.scheduled), ("unscheduled", .nat r.unscheduled)] ++
    (if r.counts.isEmpty then [] else [("counts", .obj (r.counts.map fun (k, n) => (k, .int n)))]))

/-- The JSON form of run statistics. -/
def RunStats.toJson (s : RunStats) : Json :=
  .obj ([("courses", .nat s.courses), ("sessions", .int s.sessions), ("stages", if s.stages.isEmpty then .null else .list StageReport.toJson s.stages),
    ("cluster", s.cluster.toJson), ("merge", s.merge.toJson), ("exact_clusters", .nat s.exactClusters),
    ("greedy_clusters", .nat s.greedyClusters), ("fallbacks", Json.counts s.fallbacks),
    ("refine", s.refine.toJson), ("repair", RepairStats.toJson s.repair), ("degraded", .bool s.degraded)] ++
    (s.degradedBefore.map fun st => ("degraded_before", Json.string st.name)).toList ++
    [("qtable_version", .int s.qtableVersion), ("qtable_saved", .bool s.qtableSaved)])

/-- The JSON form of a quality report. -/
def QualityReport.toJson (q : QualityReport) : Json := .obj [("violations", Json.counts q.violations),
  ("unscheduled", Json.counts q.unscheduled), ("gap_penalty", .float q.gapPenalty),
  ("compactness", .float q.compactness), ("workload_balance", .float q.workloadBalance),
  ("room_utilization", .float q.roomUtilization), ("scheduled_ratio", .float q.scheduledRatio),
  ("scheduled_count", .nat q.scheduledCount), ("unscheduled_count", .nat q.unscheduledCount)]

/-- The JSON form of an event detail value. -/
def DetailValue.toJson : DetailValue → Json
  | .text s => .string s
  | .count n => .int n
  | .real x => .float x

/-- The JSON form of a q-table: its version, update count, and rows (`null` when it has none). -/
def QTable.toJson (q : QTable) : Json := .obj [("version", .int q.version), ("updates", .int q.updates),
  ("values", match q.values with
    | none => .null
    | some vs => .obj (vs.toList.map fun (k, row) => (k, .list Json.float row.toList)))]

/-- The JSON form of a violation. -/
def Violation.toJson (v : Violation) : Json := .obj ([("kind", .string v.kind.name), ("key", v.key.toJson),
  ("message", .string v.message)] ++ (v.other.map fun k => ("with", k.toJson)).toList)

/-- The JSON form of a progress event. -/
def ProgressEvent.toJson (e : ProgressEvent) : Json := .obj [("job_id", .string e.jobId),
  ("stage", .string e.stage.name), ("percent", .float e.percent), ("step", .string e.step),
  ("detail", match e.detail with
    | none => .null
    | some d => .obj (d.map fun (k, v) => (k, v.toJson)))]

namespace Json

/-- A hardware profile. -/
def asHardwareProfile (j : Json) : Except DecodeError HardwareProfile := do
  let j ← asRecord j
  pure { cpuCores := ← j.get "cpu_cores" asInt, totalMemory := ← j.get "total_memory_bytes" asUInt64,
         availableMemory := ← j.get "available_memory_bytes" asUInt64, hasGpu := ← j.get "has_gpu" asBool }

/-- A strategy. -/
def asStrategyConfig (j : Json) : Except DecodeError StrategyConfig := do
  let j ← asRecord j
  let i (n : String) := j.get n asInt
  let f (n : String) := j.get n asFloat
  pure { tier := ← j.get "tier" asString, quality := ← j.get "quality" asString,
         clusterWorkers := ← i "cluster_workers", solverWorkers := ← i "solver_workers",
         maxClusterSize := ← i "max_cluster_size", solverMode := ← j.get "solver_mode" asString,
         solverTimeout := ← i "solver_timeout", solverNodeBudget := ← i "solver_node_budget",
         populationSize := ← i "population_size", generations := ← i "generations",
         plateauGenerations := ← i "plateau_generations", tournamentSize := ← i "tournament_size",
         crossoverRate := ← f "crossover_rate", mutationRate := ← f "mutation_rate",
         repairIterations := ← i "repair_iterations", learningRate := ← f "learning_rate",
         discount := ← f "discount", epsilonStart := ← f "epsilon_start", epsilonMin := ← f "epsilon_min",
         annealFraction := ← f "anneal_fraction", degraded := ← j.get "degraded" asBool }

/-- The settings of a refinement. -/
def asRefineConfig (j : Json) : Except DecodeError RefineConfig := do
  let j ← asRecord j
  pure { populationSize := ← j.get "population_size" asInt, generations := ← j.get "generations" asInt,
         plateauGenerations := ← j.get "plateau_generations" asInt,
         tournamentSize := ← j.get "tournament_size" asInt, crossoverRate := ← j.get "crossover_rate" asFloat,
         mutationRate := ← j.get "mutation_rate" asFloat, seed := ← j.get "seed" asUInt64 }

/-- The settings of a repair. -/
def asRepairConfig (j : Json) : Except DecodeError RepairConfig := do
  let j ← asRecord j
  pure { iterations := ← j.get "iterations" asInt, learningRate := ← j.get "learning_rate" asFloat,
         discount := ← j.get "discount" asFloat, epsilonStart := ← j.get "epsilon_start" asFloat,
         epsilonMin := ← j.get "epsilon_min" asFloat, annealFraction := ← j.get "anneal_fraction" asFloat,
         seed := ← j.get "seed" asUInt64 }

/-- A q-table; a missing or `null` set of rows is a table without rows. -/
def asQTable (j : Json) : Except DecodeError QTable := do
  let j ← asRecord j
  pure { version := ← j.get "version" asInt, updates := ← j.get "updates" asInt,
         values := ((← j.getOpt "values" (asMap (asList asFloat))).map fun m =>
           m.foldl (fun h (k, row) => h.insert k row.toArray) {}) }

/-- A situation of the repair agent. -/
def asSituation (j : Json) : Except DecodeError Situation := do
  let j ← asRecord j
  pure ⟨← j.get "conflict" asString, ← j.get "load" asString, ← j.get "density" asString⟩

/-- A memory probe replaying recorded readings, `{used, limit, warning, critical}`; a monitor
that cannot be built with the thresholds is refused with its reason. -/
def asReplayProbe (j : Json) : Except DecodeError (Except String MemoryProbe) := do
  let j ← asRecord j
  let used ← j.get "used" (asList asInt)
  let limit ← j.get "limit" asUInt64
  pure ((Monitor.create (← j.get "warning" asFloat) (← j.get "critical" asFloat)).map fun m =>
    { monitor := m, sample := Usage.replay used limit })

end Json

end Timetabling
