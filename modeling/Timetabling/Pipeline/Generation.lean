import Timetabling.Pipeline.Progress
import Timetabling.Strategy.Basic
import Timetabling.Monitor
import Timetabling.Search.Merge
import Timetabling.Refinement
import Timetabling.Repair.Agent
import Timetabling.Validation

/-! # Generating a timetable

A generation run takes a catalog through four stages: clustering the courses, solving the
clusters and merging them, refining the result genetically, and repairing what is still
missing with the shared Q-table of the request's scope. The strategy comes from the request or
is chosen for the machine and the quality mode.

Before each stage the run checks whether it was asked to stop, then takes a memory sample: a
critical level ends the run, and a warning degrades the strategy once. The refining and
repairing stages must leave a valid timetable, and so must solving; the Q-table the repair
trained is saved only then. Every stage change and every `n`-th generation or iteration (`n`
being the progress interval, ten by default) is reported.

A run that stops is reported by kind (resources exhausted, cancelled, invariant broken), the
stage it stopped after, and the statistics so far. -/

namespace Timetabling

/-- What one finished stage reports. -/
structure StageReport where
  stage : Stage
  exclusive : Bool
  scheduled : Nat := 0
  unscheduled : Nat := 0
  counts : List (String × Int)

/-- The statistics of a run; the repair's are absent until the repair stage has run. -/
structure RunStats where
  courses : Nat := 0
  sessions : Int := 0
  stages : List StageReport := []
  cluster : ClusterStats := {}
  merge : MergeStats := {}
  exactClusters : Nat := 0
  greedyClusters : Nat := 0
  fallbacks : List (String × Nat) := []
  refine : RefineStats := {}
  repair : Option RepairStats := none
  degraded : Bool := false
  degradedBefore : Option Stage := none
  qtableVersion : Int := 0
  qtableSaved : Bool := false

/-- Process-wide settings of generation runs, with what runs take from outside the engine: the
graph library that finds communities of conflicting courses, and the solver's clock, which says
when the exact search of a cluster is past its deadline, by the number of the node it reached. -/
structure PipelineConfig where
  detector : Detector
  pastDeadline : Cluster → Nat → Bool
  table : StrategyTable := StrategyTable.builtin
  edgeThreshold : Float := 0
  maxClusterSize : Int := 0
  progressEvery : Int := 0

/-- The progress interval in force: ten when none is given. -/
def PipelineConfig.every (c : PipelineConfig) : Nat :=
  if c.progressEvery ≤ 0 then 10 else c.progressEvery.toNat

/-- One generation request. -/
structure RunRequest where
  jobId : String := ""
  catalog : Option Catalog
  profile : HardwareProfile := {}
  quality : String := ""
  scope : String := ""
  seed : Nat := 0
  strategy : Option StrategyConfig := none

/-- A memory monitor with the samples it will read, by the number of samples taken. -/
structure MemoryProbe where
  monitor : Monitor
  sample : Nat → Except String Usage
  taken : Nat := 0

/-- Take one sample. -/
def MemoryProbe.check (p : MemoryProbe) : PressureLevel × MemoryProbe :=
  let (level, _, m) := p.monitor.check (p.sample p.taken)
  (level, { p with monitor := m, taken := p.taken + 1 })

/-- A completed run. -/
structure RunResult where
  timetable : Timetable
  strategy : StrategyConfig
  stats : RunStats
  quality : QualityReport

/-- Why a stage did not finish. -/
inductive StageFault where
  | cancelled
  | critical
  | invariant (message : String)
  | fault (message : String)

/-- How a run failed: a run that could not start; a run stopped after a stage, with its kind,
the cause and the statistics so far; or a fault inside a stage. -/
inductive RunFailure where
  | refused (message : String)
  | stopped (kind : FailureKind) (lastStage : Stage) (cause : String) (stats : RunStats)
  | fault (message : String)

/-- The text of a run failure. -/
def RunFailure.message : RunFailure → String
  | .refused m => m
  | .stopped kind last cause _ => failureMessage kind.name last.name (some cause)
  | .fault m => m

/-- Everything a run changes as it goes. -/
structure RunContext (σ β : Type) where
  request : RunRequest
  catalog : Catalog
  config : PipelineConfig
  strategy : StrategyConfig
  domain : Domain
  clusters : List Cluster := []
  timetable : Option Timetable := none
  stats : RunStats
  stage : Stage := .initializing
  warning : Bool := false
  critical : Bool := false
  trained : Option QTable := none
  probe : Option MemoryProbe
  shelf : TableShelf β
  store : β
  observer : Observer σ

/-- The steps of a run: they change the run's context and may fail. -/
abbrev RunStep (σ β : Type) := ExceptT StageFault (StateM (RunContext σ β))

namespace RunStep

variable {σ β : Type}

/-- Report an event. -/
def publish (stage : Stage) (fraction : Float) (step : String)
    (detail : Option (List (String × DetailValue))) : RunStep σ β Unit :=
  modify fun c =>
    let e : ProgressEvent :=
      { jobId := c.request.jobId, stage, percent := stage.percentWithin fraction, step, detail }
    { c with observer := c.observer.deliver e }

/-- Move to a stage and report it; a move the stage order forbids is not made nor reported. -/
def transition (target : Stage) (fraction : Float) (step : String)
    (detail : Option (List (String × DetailValue))) : RunStep σ β Unit := do
  let c ← get
  if target != c.stage then
    if !c.stage.canMove target then return
    set { c with stage := target }
  publish target fraction step detail

/-- Fail when the observer asked the run to stop. -/
def checkStop : RunStep σ β Unit := do
  if (← get).observer.halted then throw .cancelled

/-- The check before a stage: stop if asked, sample memory, end on critical pressure and
degrade once on a warning. -/
def boundary (next : Stage) : RunStep σ β Unit := do
  checkStop
  let c ← get
  match c.probe with
  | none => pure ()
  | some p =>
    let (level, p) := p.check
    set { c with
          probe := some p
          critical := c.critical || level == PressureLevel.critical
          warning := c.warning || level == PressureLevel.warning }
  let c ← get
  if c.critical then throw .critical
  if c.warning && !c.strategy.degraded then
    set { c with strategy := c.strategy.degrade,
                 stats := { c.stats with degraded := true, degradedBefore := some next } }

/-- Cluster the catalog's courses. A run asked to stop fails here unless there are no courses. -/
def clusterStage : RunStep σ β (List (String × Int)) := do
  let c ← get
  if !c.catalog.courses.isEmpty then checkStop
  let (clusters, stats) := clusterCoursesBy c.config.detector c.catalog
    { edgeThreshold := c.config.edgeThreshold, maxClusterSize := c.strategy.maxClusterSize,
      seed := c.request.seed }
  set { c with clusters, stats := { c.stats with cluster := stats } }
  pure [("clusters", stats.clusters), ("edges", stats.edges), ("oversized", stats.oversized)]

/-- Count a fallback reason. -/
def countFallback (fs : List (String × Nat)) (name : String) : List (String × Nat) :=
  if fs.any (·.1 == name) then fs.map fun (k, n) => if k == name then (k, n + 1) else (k, n)
  else fs ++ [(name, 1)]

/-- Solve every cluster and merge the results. -/
def solveStage : RunStep σ β (List (String × Int)) := do
  checkStop
  let c ← get
  let exact := c.strategy.solverMode == "exact"
  let parts := c.clusters.map fun cl =>
    cl.solve c.catalog c.domain exact c.strategy.solverTimeout (c.config.pastDeadline cl)
      c.strategy.solverNodeBudget
  let stats := parts.foldl (fun (s : RunStats) p =>
    match p.fallback with
    | none => { s with exactClusters := s.exactClusters + 1 }
    | some f => { s with greedyClusters := s.greedyClusters + 1,
                         fallbacks := countFallback s.fallbacks f.name }) c.stats
  let (t, m) := merge c.catalog c.domain parts
  set { c with timetable := some t, stats := { stats with merge := m } }
  pure [("exact", stats.exactClusters), ("greedy", stats.greedyClusters), ("collisions", m.collisions)]

/-- The progress report of a refinement generation, every `every` generations and at the last. -/
def refineNote (every : Nat) (c : RunContext σ β) (gen : Nat) (total : Int) (best : Fitness) :
    RunContext σ β :=
  if gen % every != 0 && (gen : Int) != total then c
  else
    let stage := Stage.refining
    ((publish stage (Float.ofNat gen / Float.ofInt total) s!"generation {gen}/{total}"
      (some [("best_fitness", .real best.total)]) : RunStep σ β Unit).run.run c).2

/-- Refine the timetable genetically, unless the strategy asks for no population or no
generations. -/
def refineStage : RunStep σ β (List (String × Int)) := do
  let c ← get
  let s := c.strategy
  if s.populationSize ≤ 0 ∨ s.generations ≤ 0 then return [("generations", 0)]
  let cfg : RefineConfig :=
    { populationSize := s.populationSize
      generations := s.generations
      plateauGenerations := s.plateauGenerations
      tournamentSize := s.tournamentSize
      crossoverRate := s.crossoverRate
      mutationRate := s.mutationRate
      seed := c.request.seed }
  let watch : RefineWatch (RunContext σ β) := ⟨c, refineNote c.config.every, fun c => c.observer.halted⟩
  let t := c.timetable.getD (Timetable.empty c.catalog)
  match t.refine c.domain cfg watch with
  | (.error _, w) => set w.state; throw .cancelled
  | (.ok (t, stats), w) =>
    set { w.state with timetable := some t, stats := { w.state.stats with refine := stats } }
    pure [("generations", stats.generations), ("mutations", stats.mutations)]

/-- The progress report of a repair iteration, every `every` iterations and at the last. -/
def repairNote (every : Nat) (c : RunContext σ β) (it : Nat) (total : Int) (remaining : Nat) :
    RunContext σ β :=
  if it % every != 0 && (it : Int) != total then c
  else
    ((publish .repairing (Float.ofNat it / Float.ofInt total) s!"iteration {it}/{total}"
      (some [("remaining_conflicts", .count remaining)]) : RunStep σ β Unit).run.run c).2

/-- Repair the timetable with the scope's Q-table; the trained table waits for validation. -/
def repairStage : RunStep σ β (List (String × Int)) := do
  let c ← get
  let s := c.strategy
  let (loaded, store) := c.shelf.load c.store c.request.scope
  let table := loaded.toOption.getD {}
  let c := { c with store }
  let c := { c with stats := { c.stats with qtableVersion := table.version } }
  set c
  let cfg : RepairConfig :=
    { iterations := s.repairIterations
      learningRate := s.learningRate
      discount := s.discount
      epsilonStart := s.epsilonStart
      epsilonMin := s.epsilonMin
      annealFraction := s.annealFraction
      seed := c.request.seed }
  let watch : RepairWatch (RunContext σ β) := ⟨c, repairNote c.config.every, fun c => c.observer.halted⟩
  let t := c.timetable.getD (Timetable.empty c.catalog)
  match t.repair c.domain table cfg watch with
  | (.error (.stopped _, _, _), w) => set w.state; throw .cancelled
  | (.error (.fault m, _, _), w) => set w.state; throw (.fault m)
  | (.ok (t, table, stats), w) =>
    set { w.state with timetable := some t, stats := { w.state.stats with repair := some stats },
                       trained := if stats.updates > 0 then some table else none }
    pure [("initial_conflicts", stats.initialConflicts), ("remaining_conflicts", stats.remainingConflicts),
          ("reassignments", stats.reassignments)]

/-- Save the trained Q-table, if any; a save refused for its version is left unsaved. -/
def commitTable : RunStep σ β Unit := do
  let c ← get
  match c.trained with
  | none => pure ()
  | some table =>
    set { c with trained := none }
    match c.shelf.save c.store c.request.scope table with
    | (.error _, store) => set { c with trained := none, store }
    | (.ok saved, store) =>
      set { c with trained := none, store,
                   stats := { c.stats with qtableSaved := true, qtableVersion := saved.version } }

/-- Run one stage: report its start, run it, validate and commit when the stage asks, and record
its report. -/
def execute (stage : Stage) (exclusive validate commit : Bool) (body : RunStep σ β (List (String × Int))) :
    RunStep σ β Unit := do
  transition stage 0 "started" none
  let counts ← body
  let c ← get
  if validate then
    match c.timetable with
    | some t =>
      match t.validate with
      | .error m => throw (.invariant m)
      | .ok () => pure ()
    | none => pure ()
  if commit then commitTable
  let c ← get
  let report : StageReport :=
    { stage, exclusive, counts
      scheduled := (c.timetable.map (·.size)).getD 0
      unscheduled := (c.timetable.map (·.missing.length)).getD 0 }
  set { c with stats := { c.stats with stages := c.stats.stages ++ [report] } }

/-- The stages in order. -/
def stages : List (RunStep σ β Unit) :=
  [boundary .clustering *> execute .clustering false false false clusterStage,
   boundary .solving *> execute .solving false true false solveStage,
   boundary .refining *> execute .refining true true false refineStage,
   boundary .repairing *> execute .repairing true true true repairStage]

/-- Report how a run stopped and describe the failure. -/
def fail (f : StageFault) : StateM (RunContext σ β) RunFailure := do
  let c ← get
  let last := c.stage
  let (kind, cause) := match f with
    | .invariant m => (FailureKind.invariantViolation, m)
    | .critical => (.resourceExhausted, "memory pressure critical")
    | .cancelled => (.cancelled, "context canceled")
    | .fault m => (.invariantViolation, m)
  match f with
  | .fault m => pure (.fault m)
  | _ =>
    let terminal := if kind == .cancelled then Stage.cancelled else .failed
    let _ ← (transition terminal 0 kind.name (some [("last_stage", .text last.name)]) : RunStep σ β Unit).run
    pure (.stopped kind last cause (← get).stats)

end RunStep

/-- What a run leaves behind: its result, the Q-table store, the memory probe and the observer. -/
structure RunOutcome (σ β : Type) where
  result : Except RunFailure RunResult
  store : β
  probe : Option MemoryProbe
  observer : Observer σ

/-- The strategy of a request: its own, or the one the configured table selects for its hardware
and quality, with the configured cluster size cap. -/
def PipelineConfig.strategyFor (config : PipelineConfig) (req : RunRequest) : StrategyConfig :=
  let strategy := req.strategy.getD (StrategyConfig.select config.table req.profile req.quality)
  if config.maxClusterSize > 0 then { strategy with maxClusterSize := config.maxClusterSize }
  else strategy

/-- The context a run of a request on the catalog `e` starts from. -/
def RunContext.start {σ β : Type} (config : PipelineConfig) (probe : Option MemoryProbe)
    (shelf : TableShelf β) (store : β) (req : RunRequest) (e : Catalog) (strategy : StrategyConfig)
    (observer : Observer σ) : RunContext σ β :=
  { request := req, catalog := e, config, strategy, domain := Domain.build e, probe, shelf, store, observer
    stats := { courses := e.courses.size, sessions := e.totalSessions } }

/-- The steps of a run on the catalog `e`: announce the strategy, run the stages, and measure the
timetable they leave. -/
def RunStep.main {σ β : Type} (e : Catalog) (strategy : StrategyConfig) : RunStep σ β RunResult := do
  RunStep.publish .initializing 1 "strategy selected" (some [("tier", .text strategy.tier),
    ("quality", .text strategy.quality), ("solver_mode", .text strategy.solverMode),
    ("courses", .count e.courses.size), ("sessions", .count e.totalSessions)])
  for st in RunStep.stages do st
  RunStep.transition .finalizing 0 "computing quality metrics" none
  let c ← get
  let t := c.timetable.getD (Timetable.empty e)
  let q := t.measure
  RunStep.transition .completed 1 "done" (some [("scheduled", .count q.scheduledCount),
    ("unscheduled", .count q.unscheduledCount)])
  pure { timetable := t, strategy := c.strategy, stats := c.stats, quality := q }

/-- Run a request to completion or failure. -/
def generate {σ β : Type} (config : PipelineConfig) (probe : Option MemoryProbe) (shelf : TableShelf β)
    (store : β) (req : RunRequest) (observer : Observer σ) : RunOutcome σ β :=
  match req.catalog with
  | none => ⟨.error (.refused "pipeline: entities are required"), store, probe, observer⟩
  | some e =>
    let strategy := config.strategyFor req
    match (RunStep.main e strategy).run.run
        (RunContext.start config probe shelf store req e strategy observer) with
    | (.ok r, c) => ⟨.ok r, c.store, c.probe, c.observer⟩
    | (.error f, c) =>
      let (failure, c) := (RunStep.fail f).run c
      ⟨.error failure, c.store, c.probe, c.observer⟩

end Timetabling
