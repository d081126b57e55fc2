import Timetabling.Proofs.Pipeline.Completion

/-! # Runs whose solved timetable fails validation

A run validates the timetable that solving leaves, and stops with the broken invariant when
validation finds anything (`generate_stops_of_invalid_solution`): whatever the run would have
done afterwards, it does not complete.

Validation finds something on accepted records only where `assign` and validation read a
course's features differently: `assign` reads them through name sets, which drop the empty name,
while validation compares the records' lists. On `Timetable.blankFeatureRecords`, whose one
course lists the empty feature name and whose one room does not, the greedy solver places the
one session in the one room, and the run stops after solving. -/

namespace Timetabling

namespace RunStep

open RunContext

variable {σ β : Type} {e : Catalog} {S : StrategyConfig}

/-- Where a run stands before its stages: sound, with its configuration and request. -/
structure Ready (e : Catalog) (S : StrategyConfig) (config : PipelineConfig) (req : RunRequest)
    (c : RunContext σ β) : Prop where
  sound : c.Sound e S false
  config : c.config = config
  request : c.request = req

theorem frameStable_ready (config : PipelineConfig) (req : RunRequest) :
    FrameStable (Ready e S config req : RunContext σ β → Prop) :=
  fun _ _ h hf ↦ ⟨frameStable_sound _ _ h.sound hf, hf.config.trans h.config,
    hf.request.trans h.request⟩

/-- Where a run stands after clustering: sound, with its configuration and the clusters `K`. -/
structure Clustered (e : Catalog) (S : StrategyConfig) (config : PipelineConfig) (K : List Cluster)
    (c : RunContext σ β) : Prop where
  sound : c.Sound e S false
  config : c.config = config
  clusters : c.clusters = K

theorem frameStable_clustered (config : PipelineConfig) (K : List Cluster) :
    FrameStable (Clustered e S config K : RunContext σ β → Prop) :=
  fun _ _ h hf ↦ ⟨frameStable_sound _ _ h.sound hf, hf.config.trans h.config,
    hf.clusters.trans h.clusters⟩

variable {config : PipelineConfig} {req : RunRequest}

/-- The clusters a run on `e` with the strategy `S` works with. -/
def runClusters (e : Catalog) (S : StrategyConfig) (config : PipelineConfig) (req : RunRequest) :
    List Cluster :=
  (clusterCoursesBy config.detector e
    { edgeThreshold := config.edgeThreshold, maxClusterSize := S.maxClusterSize, seed := req.seed }).1

/-- The timetable solving leaves on the clusters `K`. -/
def solution (e : Catalog) (S : StrategyConfig) (config : PipelineConfig) (K : List Cluster) :
    Timetable :=
  (merge e (Domain.build e) (K.map fun cl ↦
    cl.solve e (Domain.build e) (S.solverMode == "exact") S.solverTimeout (config.pastDeadline cl)
      S.solverNodeBudget)).1

theorem clusterStage_clustered :
    Sure (Ready e S config req) (clusterStage : RunStep σ β (List (String × Int)))
      fun _ ↦ Clustered e S config (runClusters e S config req) := by
  intro c hc
  obtain ⟨a, c', hrun, hf⟩ := clusterStage_frame c hc.sound.quiet c rfl
  refine ⟨a, c', hrun, frameStable_clustered _ _ _ _ ⟨hc.sound.withClusters _, ?_, ?_⟩ hf⟩
  · exact hc.config
  · rw [runClusters, ← hc.sound.catalog, ← hc.config, ← hc.request, ← hc.sound.strategy]

theorem solveStage_solution {K : List Cluster} :
    Sure (Clustered e S config K) (solveStage : RunStep σ β (List (String × Int)))
      fun _ c ↦ c.timetable = some (solution e S config K) := by
  intro c hc
  obtain ⟨a, c', hrun, hf⟩ := solveStage_frame c hc.sound.quiet c rfl
  refine ⟨a, c', hrun, hf.timetable.trans ?_⟩
  rw [solution, ← hc.clusters, ← hc.sound.domain, ← hc.sound.catalog, ← hc.sound.strategy,
    ← hc.config]

/-- The stages of a run whose solved timetable fails validation stop with the broken invariant. -/
theorem stages_fail {m : String}
    (hv : (solution e S config (runClusters e S config req)).validate = .error m) :
    Fails (Ready e S config req) (forIn (stages : List (RunStep σ β Unit)) PUnit.unit
      fun st _ ↦ do
        st
        pure (ForInStep.yield PUnit.unit)) fun f _ ↦ f = .invariant m := by
  unfold stages
  refine Fails.forIn_cons (Sure.seqRight (Sure.framed (fun c h ↦ boundary_frame _ c h.sound.quiet)
    (frameStable_ready config req)) fun _ ↦ execute_sure (frameStable_ready config req)
      (frameStable_clustered _ _) _ _ _ _ clusterStage_clustered fun h ↦ nomatch h) ?_
  exact Fails.forIn_head (Fails.after (Sure.framed (fun c h ↦ boundary_frame _ c h.sound.quiet)
    (frameStable_clustered _ _)) fun _ ↦ execute_fails (frameStable_clustered _ _) _ _ _
      solveStage_solution hv)

theorem main_fails {m : String}
    (hv : (solution e S config (runClusters e S config req)).validate = .error m) :
    Fails (Ready e S config req) (main e S : RunStep σ β RunResult) fun f _ ↦ f = .invariant m := by
  unfold main
  exact Fails.after (Sure.framed (fun c _ ↦ publish_frame _ _ _ _ c) (frameStable_ready config req))
    fun _ ↦ Fails.bind (stages_fail hv)

end RunStep

/-- A run whose solved timetable fails validation stops after solving, with that broken
invariant as its cause. -/
theorem generate_stops_of_invalid_solution {σ β : Type} (config : PipelineConfig)
    (shelf : TableShelf β) (store : β) (req : RunRequest) (observer : Observer σ) {e : Catalog}
    (hreq : req.catalog = some e) (hlive : ∀ x, observer.stopped x = false) {m : String}
    (hv : (RunStep.solution e (config.strategyFor req) config
      (RunStep.runClusters e (config.strategyFor req) config req)).validate = .error m) :
    ∃ last stats, (generate config none shelf store req observer).result =
      .error (.stopped .invariantViolation last m stats) := by
  obtain ⟨f, c, hrun, rfl⟩ := RunStep.main_fails hv _
    ⟨RunContext.start_sound config shelf store req _ hlive, rfl, rfl⟩
  unfold generate
  rw [hreq]
  dsimp only
  rw [hrun]
  exact ⟨_, _, rfl⟩

/-! ## A lone course -/

/-- One item makes one chunk of any positive size. -/
theorem chunksOf_singleton {α : Type} {n : Nat} (hn : 0 < n) (x : α) : chunksOf n [x] = [[x]] := by
  obtain ⟨n, rfl⟩ := Nat.exists_eq_add_one_of_ne_zero (Nat.pos_iff_ne_zero.mp hn)
  simp [chunksOf, chunksOf.go]

/-- A catalog of one course is clustered into one cluster of that course, whatever the options
and the detector. -/
theorem clusterCoursesBy_single {e : Catalog} {c : Course} (h : e.courses = #[c]) (d : Detector)
    (opts : ClusterOptions) :
    (clusterCoursesBy d e opts).1 = [{ id := 0, courseIds := [c.id], oversized := false }] := by
  -- a lone course has no conflicts, so it is isolated and clustered alone and the detector
  -- is never asked
  have hlimit : 0 < (if opts.maxClusterSize ≤ 0 then 24 else opts.maxClusterSize.toNat) := by
    split <;> omega
  unfold clusterCoursesBy
  simp [h, conflictRows, conflictPairs, isolatedCourses, findCommunities, chunksOf_singleton hlimit,
    Cluster.ofMembers, numberClusters, sortStrings, stableSort]

theorem Domain.forCourse_build_single {e : Catalog} {c : Course} (h : e.courses = #[c]) :
    (Domain.build e).forCourse c.id = e.candidates c := by
  simp [Domain.build, Domain.forCourse, h]

namespace Timetable

variable {e : Catalog} {k : SessionKey} {p : Placement}

/-- Greedy placement of one session that is not placed, whose only candidate the timetable
accepts, puts it there. -/
theorem greedy_single {t t' : Timetable} {d : Domain} (hplaced : t.isPlaced k = false)
    (hd : d.forKey k = [p]) (ha : t.assign k p = .ok t') : (t.greedy d [k]).1 = t' := by
  unfold greedy
  simp [Catalog.orderByDifficulty, stableSort, greedyStep, hplaced, hd, greedyOrder, firstFit, ha]

theorem keys_place_empty : ((empty e).place k p).keys = [k] := by
  -- a map with one entry has that one key
  have hlen : ((∅ : Std.HashMap SessionKey Placement).insert k p).keys.length = 1 := by
    simp [Std.HashMap.length_keys, Std.HashMap.size_insert]
  obtain ⟨a, ha⟩ := List.length_eq_one_iff.mp hlen
  have hk : k ∈ ((∅ : Std.HashMap SessionKey Placement).insert k p).keys := by
    simp [Std.HashMap.mem_keys]
  rw [ha, List.mem_singleton] at hk
  subst hk
  simp [keys, place, empty, sortKeys, stableSort, ha]

theorem lookup_place_empty : ((empty e).place k p).lookup k = some p := by
  simp [lookup, place, empty]

theorem unscheduled_place_empty : ((empty e).place k p).unscheduled = [] := by
  simp [unscheduled, place, empty, sortKeys, stableSort]

end Timetable

/-- Merging one cluster's timetable that places one session, where the empty timetable accepts
that placement and nothing else is missing, gives that placement. -/
theorem merge_single {e : Catalog} {d : Domain} {sol : ClusterSolution} {pt t : Timetable}
    {k : SessionKey} {p : Placement} (hpt : sol.timetable = some pt) (hkeys : pt.keys = [k])
    (hl : pt.lookup k = some p) (hun : pt.unscheduled = [])
    (ha : (Timetable.empty e).assign k p = .ok t) (hmiss : t.missing = []) :
    (merge e d [sol]).1 = t := by
  -- the one offer is committed, so nothing collides and nothing is left to mark
  have hc : commitParts e [sol] = (t, 1, []) := by
    simp [commitParts, mergeOrder, stableSort, commitSolution, hpt, commitPart, hkeys, commitKey,
      hl, commitOffer, ha, hun]
  unfold merge
  simp [hc, hmiss]

/-! ## Records whose course lists the empty feature name -/

section BlankFeature

open Timetable

variable {e : Catalog}

/-- The one session of the records has one candidate: the one room in the one slot. -/
theorem candidates_blankFeatureRecords (hb : Catalog.build blankFeatureRecords = .ok e) :
    e.candidates { id := "c", facultyId := "f", sessions := 1, requiredFeatures := [""] } =
      [⟨"s", "r"⟩] := by
  simp [blankFeatureRecords, Catalog.build, Catalog.indexFaculty, Catalog.indexSlots,
    Catalog.indexRooms, Catalog.indexCourses, Catalog.courseStudents, stableSort, dedupStrings,
    sortStrings] at hb
  cases hb
  simp [Catalog.candidates, Catalog.roomSuits, Catalog.facultyAvailable, Catalog.nameSet,
    Catalog.enrollment, Catalog.students, stableSort, Std.HashSet.toList_empty,
    -Std.HashSet.all_toList]

/-- Greedy solving of the records places their one session in the one room, and validation
refuses the timetable that leaves: the room's record lacks the empty feature name. -/
theorem solution_blankFeatureRecords (hb : Catalog.build blankFeatureRecords = .ok e)
    (S : StrategyConfig) (hmode : (S.solverMode == "exact") = false) (config : PipelineConfig)
    (req : RunRequest) :
    ∃ m, (RunStep.solution e S config (RunStep.runClusters e S config req)).validate = .error m := by
  obtain ⟨e', hb', hcourses, hc, hr, hcheck⟩ := build_blankFeatureRecords
  obtain rfl : e = e' := Except.ok.inj (hb.symm.trans hb')
  have ha := assign_eq_ok.mpr ⟨hcheck, rfl⟩
  -- the one cluster is solved greedily, and merging keeps its one placement
  have hgreedy : ((empty e).greedy (Domain.build e) [⟨"c", 0⟩]).1 =
      (empty e).place ⟨"c", 0⟩ ⟨"s", "r"⟩ := by
    refine greedy_single (by simp [isPlaced, empty]) ?_ ha
    rw [Domain.forKey, Domain.forCourse_build_single hcourses, candidates_blankFeatureRecords hb]
  have hsol : RunStep.solution e S config (RunStep.runClusters e S config req) =
      (empty e).place ⟨"c", 0⟩ ⟨"s", "r"⟩ := by
    rw [RunStep.solution, RunStep.runClusters, clusterCoursesBy_single hcourses]
    refine merge_single ?_ (keys_place_empty (e := e)) lookup_place_empty unscheduled_place_empty ha ?_
    · simp [Cluster.solve, hmode, Cluster.keys, hc, hgreedy]
    · simp [missing, hcourses]
  -- the placed session has a blank-feature report, so validation cannot pass
  have hreach : Reachable _ := .assign (.empty (Catalog.indexed_of_build hb)) ha
  have hk : (⟨"c", 0⟩ : SessionKey) ∈ ((empty e).place ⟨"c", 0⟩ ⟨"s", "r"⟩).keys := by
    simp [keys_place_empty]
  rw [hsol]
  cases hv : ((empty e).place ⟨"c", 0⟩ ⟨"s", "r"⟩).validate with
  | error m => exact ⟨m, rfl⟩
  | ok u =>
    have hblank := (hreach.validate_eq_ok_iff.mp hv).1 _ hk
    simp [blankFeatureReport, lookup, hc, hr] at hblank

/-- A run on the records on a machine with under two gibibytes of memory, whose strategy solves
greedily, stops after solving with a broken invariant instead of completing, whatever finds the
communities and whenever the search deadline passes. -/
theorem blank_feature_run_stops (detector : Detector) (pastDeadline : Cluster → Nat → Bool) :
    ∃ e, Catalog.build blankFeatureRecords = .ok e ∧ ∃ last m stats,
      (generate { detector, pastDeadline } none TableStore.shelf {}
        { jobId := "j", catalog := some e, quality := "balanced", scope := "s", seed := 1,
          profile := { cpuCores := 1, totalMemory := 1000000000, availableMemory := 1000000000 } }
        (⟨(), fun s _ ↦ s, fun _ ↦ false⟩ : Observer Unit)).result =
      .error (.stopped .invariantViolation last m stats) := by
  obtain ⟨e, hb, -⟩ := build_blankFeatureRecords
  let req : RunRequest :=
    { jobId := "j", catalog := some e, quality := "balanced", scope := "s", seed := 1,
      profile := { cpuCores := 1, totalMemory := 1000000000, availableMemory := 1000000000 } }
  -- under two gibibytes the strategy table picks greedy solving
  let config : PipelineConfig := { detector, pastDeadline }
  obtain ⟨m, hv⟩ := solution_blankFeatureRecords hb (config.strategyFor req) rfl config req
  obtain ⟨last, stats, hrun⟩ := generate_stops_of_invalid_solution config TableStore.shelf {} req
    (⟨(), fun s _ ↦ s, fun _ ↦ false⟩ : Observer Unit) rfl (fun _ ↦ rfl) hv
  exact ⟨e, hb, last, m, stats, hrun⟩

/-- The run on the records, with one community of all linked courses and no search deadline,
stops after solving with a broken invariant. -/
theorem generate_stops_on_blank_feature :
    ∃ e, Catalog.build blankFeatureRecords = .ok e ∧ ∃ last m stats,
      (generate .oneCommunityUntimed none TableStore.shelf {}
        { jobId := "j", catalog := some e, quality := "balanced", scope := "s", seed := 1,
          profile := { cpuCores := 1, totalMemory := 1000000000, availableMemory := 1000000000 } }
        (⟨(), fun s _ ↦ s, fun _ ↦ false⟩ : Observer Unit)).result =
      .error (.stopped .invariantViolation last m stats) :=
  blank_feature_run_stops oneCommunity fun _ _ ↦ false

end BlankFeature

end Timetabling
