import Timetabling.Proofs.Catalog.Arranged
import Timetabling.Proofs.Refinement.Feasible
import Timetabling.Proofs.Repair.Edits
import Timetabling.Proofs.Search.Merge
import Timetabling.Proofs.Validation.Reports
import Timetabling.Proofs.Pipeline.Steps

/-! # Runs on sound catalogs complete

A generation run validates the timetable after solving, refining and repairing, and stops with a
broken invariant when validation finds anything. On a catalog built from accepted records,
validation finds only what `assign` cannot see (`Timetable.violations_of_reachable`): a course
asking for the empty feature name in a room whose record lacks it, and a missing session without
a reason. Every stage hands the next an edit of the empty timetable in which every missing
session has a reason: merging marks what it leaves out, refinement keeps what its seed explains,
and repair marks what it leaves out. So validation always passes on a catalog whose rooms list
the empty feature name whenever a course asks for it.

Repair fails only on a candidate slot with no part of the day, which a non-negative period whose
triple fits in 64 bits always has. So a run without a memory monitor whose observer never asks it
to stop completes with a valid timetable on every catalog whose rooms list the empty feature name
some course asks for and whose slots have such periods (`generate_completes`).

The stages are followed with `RunStep.Sure`, a triple for steps that cannot fail. -/

namespace Timetabling

/-! ## Valid timetables -/

namespace Catalog

/-- Every room lists the empty feature name whenever some course asks for it, so no room's record
lacks a name that `assign` cannot see. -/
def BlankFeaturesListed (e : Catalog) : Prop :=
  ∀ c ∈ e.courses.toList, "" ∈ c.requiredFeatures → ∀ r ∈ e.rooms.toList, "" ∈ r.features

variable {d : Dataset} {e : Catalog}

theorem blankFeaturesListed_of_build (hb : build d = .ok e)
    (h : ∀ c ∈ d.courses, "" ∈ c.requiredFeatures → ∀ r ∈ d.rooms, "" ∈ r.features) :
    e.BlankFeaturesListed := by
  obtain ⟨-, -, -, -, -, hcs, hrs, -⟩ := build_eq_ok hb
  intro c hc hreq r hr
  rw [hcs, List.toList_toArray, byId, stableSort, List.mem_mergeSort] at hc
  rw [hrs, List.toList_toArray, byId, stableSort, List.mem_mergeSort] at hr
  exact h c hc hreq r hr

theorem periodsInRange_of_build (hb : build d = .ok e)
    (h : ∀ s ∈ d.timeSlots, 0 ≤ s.period ∧ s.period * 3 < Int.pow 2 63) : e.PeriodsInRange := by
  intro s hs
  rw [slots_of_build hb, List.mem_toArray, stableSort, List.mem_mergeSort] at hs
  exact h s hs

end Catalog

namespace Timetable

theorem blankFeatureReport_eq_none {t : Timetable} (he : t.catalog.Indexed)
    (hblank : t.catalog.BlankFeaturesListed) (k : SessionKey) : t.blankFeatureReport k = none := by
  unfold blankFeatureReport
  split
  · rename_i c r hc hr
    obtain ⟨p, -, hp⟩ := Option.bind_eq_some_iff.mp hr
    rw [if_neg]
    rintro ⟨hreq, hlack⟩
    exact hlack (hblank c (Catalog.mem_of_course? hc) hreq r (he.room?_id hp).2)
  · rfl

/-- A timetable without violations is measured without any. -/
theorem measure_violations_eq_nil {t : Timetable} (h : t.violations = []) :
    t.measure.violations = [] := by
  unfold measure
  split
  rw [h]
  rfl

/-- An edit of the empty timetable in which every missing session has a reason passes validation
when the catalog is indexed and its rooms list the empty feature name some course asks for. -/
theorem validate_eq_ok_of_accounted {e : Catalog} (he : e.Indexed) (hblank : e.BlankFeaturesListed)
    {t : Timetable} (hed : (empty e).Edited t) (hacc : t.Accounted) : t.validate = .ok () := by
  have hcat : t.catalog = e := hed.catalog_eq
  rw [(hed.reachable (.empty he)).validate_eq_ok_iff]
  exact ⟨fun k _ ↦ blankFeatureReport_eq_none (hcat ▸ he) (hcat ▸ hblank) k, hacc⟩

end Timetable

namespace RunContext

variable {σ β : Type}

/-- What a run keeps on the catalog `e` with the strategy `S`: it works on `e`, its domain and `S`,
has no memory monitor and no memory pressure, its observer never asks it to stop, and any
timetable it holds is an edit of the empty timetable of `e` that gives every missing session a
reason; once `solved`, it holds one. -/
structure Sound (e : Catalog) (S : StrategyConfig) (solved : Bool) (c : RunContext σ β) : Prop where
  catalog : c.catalog = e
  domain : c.domain = Domain.build e
  strategy : c.strategy = S
  quiet : c.Quiet
  timetable : ∀ t, c.timetable = some t → (Timetable.empty e).Edited t ∧ t.Accounted
  held : solved = true → c.timetable.isSome

variable {e : Catalog} {S : StrategyConfig} {b : Bool} {c c' : RunContext σ β}

theorem frameStable_sound : FrameStable (Sound e S b : RunContext σ β → Prop) :=
  fun _ _ h hf ↦
    ⟨hf.catalog.trans h.catalog, hf.domain.trans h.domain, hf.strategy.trans h.strategy,
      frameStable_quiet _ _ h.quiet hf, fun t ht ↦ h.timetable t (hf.timetable ▸ ht),
      fun hb ↦ hf.timetable ▸ h.held hb⟩

/-- Soundness does not read the clusters. -/
theorem Sound.withClusters (h : c.Sound e S b) (clusters : List Cluster) :
    Sound e S b { c with clusters } :=
  ⟨h.catalog, h.domain, h.strategy, ⟨h.quiet.probe, h.quiet.calm, h.quiet.steady, h.quiet.live⟩,
    h.timetable, h.held⟩

/-- Holding a new timetable that is an accounted edit of the empty one keeps a context sound, and
makes it hold one. -/
theorem Sound.hold {b' : Bool} (h : c.Sound e S b) {t : Timetable}
    (ht : (Timetable.empty e).Edited t ∧ t.Accounted) (hf : Frame { c with timetable := some t } c') :
    c'.Sound e S b' where
  catalog := hf.catalog.trans h.catalog
  domain := hf.domain.trans h.domain
  strategy := hf.strategy.trans h.strategy
  quiet := frameStable_quiet { c with timetable := some t } _
    ⟨h.quiet.probe, h.quiet.calm, h.quiet.steady, h.quiet.live⟩ hf
  timetable t' ht' := by
    rw [hf.timetable, Option.some.injEq] at ht'
    exact ht' ▸ ht
  held _ := by rw [hf.timetable]; rfl

/-- A run without a monitor, whose observer never stops it, starts sound. -/
theorem start_sound (config : PipelineConfig) (shelf : TableShelf β) (store : β) (req : RunRequest)
    (S : StrategyConfig) {observer : Observer σ} (hlive : ∀ x, observer.stopped x = false) :
    (start config none shelf store req e S observer).Sound e S false :=
  ⟨rfl, rfl, rfl, ⟨rfl, rfl, rfl, hlive⟩, fun _ h ↦ (nomatch h), fun h ↦ nomatch h⟩

/-- The timetable a sound context holds passes validation. -/
theorem Sound.validate_eq_ok (h : c.Sound e S b) (he : e.Indexed) (hblank : e.BlankFeaturesListed)
    {t : Timetable} (ht : c.timetable = some t) : t.validate = .ok () :=
  Timetable.validate_eq_ok_of_accounted he hblank (h.timetable t ht).1 (h.timetable t ht).2

end RunContext

namespace RunStep

open RunContext

variable {σ β : Type} {e : Catalog} {S : StrategyConfig} {b : Bool}

/-- Every step that keeps only records keeps a context sound. -/
theorem Sure.sound {α : Type} {x : RunStep σ β α}
    (hx : ∀ c₀ : RunContext σ β, c₀.Quiet → Sure (· = c₀) x fun _ c ↦ c₀.Frame c) :
    Sure (Sound e S b) x fun _ ↦ Sound e S b :=
  Sure.framed (fun c h ↦ hx c h.quiet) frameStable_sound

theorem clusterStage_sure :
    Sure (Sound e S b) (clusterStage : RunStep σ β (List (String × Int))) fun _ ↦ Sound e S b :=
  fun c hc ↦
    let ⟨a, c', hrun, hf⟩ := clusterStage_frame c hc.quiet c rfl
    ⟨a, c', hrun, frameStable_sound _ _ (hc.withClusters _) hf⟩

/-- Solving merges the clusters' timetables into an accounted edit of the empty one. -/
theorem solveStage_sure :
    Sure (Sound e S b) (solveStage : RunStep σ β (List (String × Int))) fun _ ↦ Sound e S true := by
  intro c hc
  obtain ⟨a, c', hrun, hf⟩ := solveStage_frame c hc.quiet c rfl
  have hmerge := merge_edited c.catalog c.domain
    (c.clusters.map fun cl ↦ cl.solve c.catalog c.domain (c.strategy.solverMode == "exact")
      c.strategy.solverTimeout (c.config.pastDeadline cl) c.strategy.solverNodeBudget)
  exact ⟨a, c', hrun, hc.hold (by rw [← hc.catalog]; exact hmerge) hf⟩

variable (he : e.Indexed)

include he in
/-- Refinement keeps what its seed explains, so the timetable stays an accounted edit. -/
theorem refineStage_sure :
    Sure (Sound e S true) (refineStage : RunStep σ β (List (String × Int))) fun _ ↦ Sound e S true := by
  unfold refineStage
  refine Sure.get_bind fun c₀ hc₀ ↦ ?_
  dsimp only
  refine Sure.ite_of (fun _ ↦ Sure.pure_of _ fun _ h ↦ h ▸ hc₀) fun _ ↦ ?_
  obtain ⟨t₀, ht₀⟩ := Option.isSome_iff_exists.mp (hc₀.held rfl)
  obtain ⟨hed, hacc⟩ := hc₀.timetable t₀ ht₀
  rw [ht₀, Option.getD_some]
  generalize RefineConfig.mk _ _ _ _ _ _ _ = cfg
  -- the progress notes only report, and the observer never stops the search
  obtain ⟨t, stats, s, hr, hkept, hs⟩ := Timetable.refine_eq_ok (I := Sound e S true)
    (hed.reachable (.empty he)) c₀.domain cfg
    ⟨c₀, refineNote c₀.config.every, fun c ↦ c.observer.halted⟩
    (fun _ _ _ _ h ↦ frameStable_sound _ _ h (refineNote_frame _ _ _ _ _)) (fun _ h ↦ h.quiet.halted)
    hc₀
  rw [hr]
  dsimp only
  refine Sure.bind (Sure.set_of (Q := fun _ ↦ Sound e S true) fun _ _ ↦ hs.hold
    ⟨hed.trans hkept.edited, hkept.explains.accounted hkept.edited.catalog_eq hacc⟩
    (Frame.records _ s.stage s.observer.state _ s.trained s.store)) fun _ ↦ Sure.pure_of _ fun _ h ↦ h

omit he in
/-- Repair ends with an accounted edit of the timetable it is given, unless a candidate slot has a
negative period. -/
theorem repairStage_sure (hperiods : e.PeriodsInRange) :
    Sure (Sound e S true) (repairStage : RunStep σ β (List (String × Int))) fun _ ↦ Sound e S true := by
  unfold repairStage
  refine Sure.get_bind fun c₀ hc₀ ↦ ?_
  obtain ⟨t₀, ht₀⟩ := Option.isSome_iff_exists.mp (hc₀.held rfl)
  obtain ⟨hed, hacc⟩ := hc₀.timetable t₀ ht₀
  have hcat : t₀.catalog = e := hed.catalog_eq
  -- the table loaded and the store left are whatever the shelf answers
  generalize c₀.shelf.load c₀.store c₀.request.scope = loaded
  obtain ⟨loaded, store⟩ := loaded
  dsimp only
  generalize loaded.toOption.getD _ = table
  refine Sure.bind (Sure.set_of (Q := fun _ _ ↦ True) fun _ _ ↦ trivial) fun _ ↦ ?_
  generalize RepairConfig.mk _ _ _ _ _ _ _ = cfg
  generalize ht : c₀.timetable.getD (Timetable.empty c₀.catalog) = t
  rw [ht₀, Option.getD_some] at ht
  subst ht
  obtain ⟨t, table', stats, s, hr, hedit, hacc', hs, -, -⟩ := Timetable.repair_eq_ok
    (I := Sound e S true) (hcat ▸ hperiods) c₀.domain table cfg
    ⟨{ c₀ with store, stats := { c₀.stats with qtableVersion := table.version } },
      repairNote c₀.config.every, fun c ↦ c.observer.halted⟩
    (fun _ _ _ _ h ↦ frameStable_sound _ _ h (repairNote_frame _ _ _ _ _)) (fun _ h ↦ h.quiet.halted)
    (frameStable_sound _ _ hc₀ (Frame.records _ c₀.stage c₀.observer.state _ c₀.trained store))
  rw [hr]
  dsimp only
  refine Sure.bind (Sure.set_of (Q := fun _ ↦ Sound e S true) fun _ _ ↦
    hs.hold ⟨hed.trans hedit, hacc'⟩ (Frame.records _ s.stage s.observer.state _ _ s.store))
    fun _ ↦ Sure.pure_of _ fun _ h ↦ h

variable (hblank : e.BlankFeaturesListed)

include he hblank in
/-- A stage whose body cannot fail cannot fail: the timetable it leaves passes validation. -/
theorem execute_sound {b' : Bool} (stage : Stage) (exclusive validate commit : Bool)
    {body : RunStep σ β (List (String × Int))} (hbody : Sure (Sound e S b) body fun _ ↦ Sound e S b') :
    Sure (Sound e S b) (boundary stage *> execute stage exclusive validate commit body)
      fun _ ↦ Sound e S b' :=
  Sure.seqRight (Sure.sound (boundary_frame stage)) fun _ ↦
    execute_sure frameStable_sound frameStable_sound stage exclusive validate commit hbody
      fun _ _ _ hc ht ↦ hc.validate_eq_ok he hblank ht

include he hblank in
/-- The stages in order: clustering and solving give a sound context a timetable, and refinement
and repair keep it sound. -/
theorem stages_sure (hperiods : e.PeriodsInRange) :
    Sure (Sound e S false) (forIn (stages : List (RunStep σ β Unit)) PUnit.unit fun st _ ↦ do
      st
      pure (ForInStep.yield PUnit.unit)) fun _ ↦ Sound e S true := by
  unfold stages
  refine Sure.forIn_cons (execute_sound he hblank _ _ _ _ clusterStage_sure) ?_
  refine Sure.forIn_cons (execute_sound he hblank _ _ _ _ solveStage_sure) ?_
  refine Sure.forIn_cons (execute_sound he hblank _ _ _ _ (refineStage_sure he)) ?_
  refine Sure.forIn_cons (execute_sound he hblank _ _ _ _ (repairStage_sure hperiods)) ?_
  exact Sure.forIn_nil

include he hblank in
theorem main_sure (hperiods : e.PeriodsInRange) (strategy : StrategyConfig) :
    Sure (Sound e strategy false) (main e strategy : RunStep σ β RunResult) fun r _ ↦
      r.timetable.violations = [] ∧ r.quality.violations = [] := by
  unfold main
  refine Sure.bind (Sure.sound fun c _ ↦ publish_frame _ _ _ _ c) fun _ ↦
    Sure.bind (stages_sure he hblank hperiods) fun _ ↦
    Sure.bind (Sure.sound fun c _ ↦ transition_frame _ _ _ _ c) fun _ ↦
    Sure.get_bind fun c₀ hc₀ ↦ ?_
  dsimp only
  -- the timetable measured is the one the stages left, which passes validation
  obtain ⟨t, ht⟩ := Option.isSome_iff_exists.mp (hc₀.held rfl)
  have hv : t.violations = [] :=
    (Timetable.validate_eq_ok_iff t).mp (hc₀.validate_eq_ok he hblank ht)
  rw [ht, Option.getD_some]
  exact Sure.bind (Sure.framed (fun c _ ↦ transition_frame _ _ _ _ c) (frameStable_frame c₀) |>.mono
    (fun _ h ↦ h ▸ .refl _) fun _ _ h ↦ h) fun _ ↦ Sure.pure_of _ fun _ _ ↦
      ⟨hv, Timetable.measure_violations_eq_nil hv⟩

end RunStep

open RunStep in
theorem generate_completes {σ β : Type} (config : PipelineConfig) (shelf : TableShelf β) (store : β)
    (req : RunRequest) (observer : Observer σ) {d : Dataset} {e : Catalog}
    (hb : Catalog.build d = .ok e) (hreq : req.catalog = some e)
    (hblank : ∀ c ∈ d.courses, "" ∈ c.requiredFeatures → ∀ r ∈ d.rooms, "" ∈ r.features)
    (hperiods : ∀ s ∈ d.timeSlots, 0 ≤ s.period ∧ s.period * 3 < Int.pow 2 63)
    (hlive : ∀ x, observer.stopped x = false) :
    ∃ r, (generate config none shelf store req observer).result = .ok r ∧
      r.timetable.violations = [] ∧ r.quality.violations = [] := by
  have he := Catalog.indexed_of_build hb
  -- the run starts sound: no timetable yet, no monitor, an observer that never stops it
  obtain ⟨r, c, hrun, hr⟩ := main_sure he (Catalog.blankFeaturesListed_of_build hb hblank)
    (Catalog.periodsInRange_of_build hb hperiods) (config.strategyFor req) _
    (RunContext.start_sound config shelf store req (config.strategyFor req) hlive)
  unfold generate
  rw [hreq]
  dsimp only
  rw [hrun]
  exact ⟨r, rfl, hr⟩

/-- Records whose one course lists the empty feature name, as does their one room. -/
def listedBlankFeatureRecords : Dataset :=
  { courses := [{ id := "c", facultyId := "f", sessions := 1, requiredFeatures := [""] }],
    faculty := [{ id := "f" }], rooms := [{ id := "r", capacity := 10, features := [""] }],
    timeSlots := [{ id := "s" }] }

/-- A run on records whose room lists the empty feature name its course asks for completes. -/
theorem generate_completes_listedBlankFeature :
    ∃ e, Catalog.build listedBlankFeatureRecords = .ok e ∧
      ∃ r, (generate .oneCommunityUntimed none TableStore.shelf {} { catalog := some e }
          (⟨(), fun s _ ↦ s, fun _ ↦ false⟩ : Observer Unit)).result = .ok r ∧
        r.timetable.violations = [] ∧ r.quality.violations = [] := by
  cases hb : Catalog.build listedBlankFeatureRecords with
  | error err =>
    simp [listedBlankFeatureRecords, Catalog.build, Catalog.indexFaculty, Catalog.indexSlots,
      Catalog.indexRooms, Catalog.indexCourses, Catalog.courseStudents, stableSort, dedupStrings,
      sortStrings] at hb
    cases hb
  | ok e =>
    exact ⟨e, rfl, generate_completes .oneCommunityUntimed TableStore.shelf {} _ _ hb rfl
      (by simp [listedBlankFeatureRecords]) (by simp [listedBlankFeatureRecords]) fun _ ↦ rfl⟩

end Timetabling
