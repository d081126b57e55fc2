import Timetabling.Proofs.Pipeline.Invalid
import Timetabling.Proofs.Pipeline.Outcome

/-! # Runs fault only on periods out of range

Repair places each candidate slot of a missing session in a part of the day, from the slot's
period tripled in 64 bits over the number of periods of the longest day; a part below zero
indexes the counts of the parts out of range, which is a fault inside the run. Every other way a
run can stop is orderly (`StageFault.Orderly`): a cancellation, critical memory pressure, or a
broken invariant, each reported with the stage the run stopped after.

A run keeps working on its catalog, and every timetable it holds is an edit of the catalog's empty
timetable (`RunContext.OnCatalog`), so repair only ever observes slots of that catalog. When every
period of the records is non-negative and its triple fits in 64 bits, no part is below zero, and a
run never faults, whatever its memory monitor samples and wherever its observer stops it
(`generate_never_faults`); `faults_only_on_negative_parts` gathers this with the bounds on the
part of a slot. A slot of period `-1` alone in its day gets the part `-3`, and observing the
missing session of a course that can only meet there faults
(`observe_faults_on_negative_period`). -/

namespace Timetabling

/-- A stop that is not a fault inside a stage: a cancellation, critical memory pressure, or a
broken invariant. -/
def StageFault.Orderly : StageFault → Prop
  | .fault _ => False
  | _ => True

namespace RunContext

variable {σ β : Type} {e : Catalog} {c c' : RunContext σ β}

/-- A context that works on the catalog `e`, and whose timetable, when it holds one, is an edit of
the empty timetable of `e`. -/
structure OnCatalog (e : Catalog) (c : RunContext σ β) : Prop where
  catalog : c.catalog = e
  timetable : ∀ t, c.timetable = some t → (Timetable.empty e).Edited t

theorem frameStable_onCatalog : FrameStable (OnCatalog e : RunContext σ β → Prop) :=
  fun _ _ h hf ↦ ⟨hf.catalog.trans h.catalog, fun t ht ↦ h.timetable t (hf.timetable ▸ ht)⟩

theorem OnCatalog.moved (h : c.OnCatalog e) (hm : RunStep.Moved c c') : c'.OnCatalog e := by
  obtain ⟨stage, o, rfl⟩ := hm
  exact ⟨h.catalog, h.timetable⟩

/-- The timetable a stage works on, the one held or else the empty one, is an edit of the empty
timetable. -/
theorem OnCatalog.getD (h : c.OnCatalog e) :
    (Timetable.empty e).Edited (c.timetable.getD (Timetable.empty c.catalog)) := by
  cases ht : c.timetable with
  | none =>
    rw [Option.getD_none, h.catalog]
    exact .refl
  | some t => exact h.timetable t ht

/-- Holding a new edit of the empty timetable keeps a context on its catalog. -/
theorem OnCatalog.hold (h : c.OnCatalog e) {t : Timetable} (ht : (Timetable.empty e).Edited t)
    (hcat : c'.catalog = c.catalog) (hheld : c'.timetable = some t) : c'.OnCatalog e :=
  ⟨hcat.trans h.catalog, fun t' ht' ↦ by
    rw [hheld, Option.some.injEq] at ht'
    exact ht' ▸ ht⟩

end RunContext

namespace RunStep

open RunContext

variable {σ β : Type} {e : Catalog}

/-- The check to stop changes nothing, and stops the run only by a cancellation. -/
theorem checkStop_orderly {P : RunContext σ β → Prop} :
    Triple P checkStop (fun _ ↦ P) (fun f _ ↦ f.Orderly) := by
  unfold checkStop
  refine Triple.get_bind fun c₀ hc₀ ↦ ?_
  exact Triple.ite_of (fun _ ↦ Triple.throw_of _ fun _ _ ↦ trivial)
    fun _ ↦ Triple.pure_of _ fun _ h ↦ h ▸ hc₀

/-- The check before a stage samples memory and may degrade the strategy; it stops the run only by
a cancellation or on critical pressure. -/
theorem boundary_orderly (next : Stage) :
    Triple (OnCatalog e : RunContext σ β → Prop) (boundary next) (fun _ ↦ OnCatalog e)
      (fun f _ ↦ f.Orderly) := by
  unfold boundary
  refine Triple.bind checkStop_orderly fun _ ↦ Triple.get_bind fun c₁ hc₁ ↦ ?_
  dsimp only
  -- a sample, when there is a monitor, changes only the memory figures
  split
  on_goal 1 =>
    refine Triple.mono (P := OnCatalog e) ?_ (fun _ h ↦ h ▸ hc₁) (fun _ _ h ↦ h) (fun _ _ h ↦ h)
  on_goal 2 =>
    refine Triple.bind (Triple.set_of (Q := fun _ ↦ OnCatalog e) fun _ _ ↦
      ⟨hc₁.catalog, hc₁.timetable⟩) fun _ ↦ ?_
  all_goals
    refine Triple.get_bind fun c₂ hc₂ ↦ Triple.ite_of (fun _ ↦ ?_) fun _ ↦ ?_
    · exact Triple.bind (Q := fun _ _ ↦ False) (Triple.throw_of _ fun _ _ ↦ trivial)
        fun _ _ h ↦ h.elim
    · exact Triple.ite_of (fun _ ↦ Triple.set_of fun _ _ ↦ ⟨hc₂.catalog, hc₂.timetable⟩)
        fun _ ↦ Triple.pure_of _ fun _ h ↦ h ▸ hc₂

theorem clusterStage_orderly :
    Triple (OnCatalog e : RunContext σ β → Prop) clusterStage (fun _ ↦ OnCatalog e)
      (fun f _ ↦ f.Orderly) := by
  unfold clusterStage
  refine Triple.get_bind fun c₁ hc₁ ↦ ?_
  dsimp only
  split
  on_goal 1 => refine Triple.bind checkStop_orderly fun _ ↦ ?_
  all_goals
    exact Triple.bind (Triple.set_of (Q := fun _ ↦ OnCatalog e) fun _ _ ↦
      ⟨hc₁.catalog, hc₁.timetable⟩) fun _ ↦ Triple.pure_of _ fun _ h ↦ h

theorem solveStage_orderly :
    Triple (OnCatalog e : RunContext σ β → Prop) solveStage (fun _ ↦ OnCatalog e)
      (fun f _ ↦ f.Orderly) := by
  unfold solveStage
  refine Triple.bind checkStop_orderly fun _ ↦ Triple.get_bind fun c₁ hc₁ ↦ ?_
  dsimp only
  -- the merged timetable is an edit of the empty one of the run's catalog
  have hmerge : (Timetable.empty e).Edited (merge c₁.catalog c₁.domain (c₁.clusters.map
      fun (cl : Cluster) ↦ cl.solve c₁.catalog c₁.domain (c₁.strategy.solverMode == "exact")
        c₁.strategy.solverTimeout (c₁.config.pastDeadline cl) c₁.strategy.solverNodeBudget)).1 := by
    rw [← hc₁.catalog]
    exact (merge_edited _ _ _).1
  exact Triple.bind (Triple.set_of (Q := fun _ ↦ OnCatalog e) fun _ _ ↦ hc₁.hold hmerge rfl rfl)
    fun _ ↦ Triple.pure_of _ fun _ h ↦ h

/-- Refinement is cancelled when its observer asks, or holds an edit of the timetable it was
given. -/
theorem refineStage_orderly (he : e.Indexed) :
    Triple (OnCatalog e : RunContext σ β → Prop) refineStage (fun _ ↦ OnCatalog e)
      (fun f _ ↦ f.Orderly) := by
  unfold refineStage
  refine Triple.get_bind fun c₁ hc₁ ↦ ?_
  dsimp only
  refine Triple.ite_of (fun _ ↦ Triple.pure_of _ fun _ h ↦ h ▸ hc₁) fun _ ↦ ?_
  generalize RefineConfig.mk _ _ _ _ _ _ _ = cfg
  have ht₀ := hc₁.getD
  -- the watch hands back the context with only progress reported
  obtain ⟨c₂, hw, hc₂⟩ := Timetable.refine_watch (I := c₁.Frame)
    (c₁.timetable.getD (Timetable.empty c₁.catalog)) c₁.domain cfg
    ⟨c₁, refineNote c₁.config.every, fun c ↦ c.observer.halted⟩
    (fun c gen total best h ↦ h.trans (refineNote_frame _ c gen total best)) (.refl c₁)
  have hon : c₂.OnCatalog e := frameStable_onCatalog _ _ hc₁ hc₂
  split <;> rename_i heq <;> rw [heq] at hw <;> cases hw
  · exact Triple.bind (Triple.set_of (Q := fun _ _ ↦ True) fun _ _ ↦ trivial)
      fun _ ↦ Triple.throw_of _ fun _ _ ↦ trivial
  · have hkept := Timetable.refine_stable (Timetable.Kept.moveStable (ht₀.reachable (.empty he)))
      (.refl _) c₁.domain cfg _ heq
    exact Triple.bind (Triple.set_of (Q := fun _ ↦ OnCatalog e) fun _ _ ↦
      hon.hold (ht₀.trans hkept.edited) rfl rfl) fun _ ↦ Triple.pure_of _ fun _ h ↦ h

/-- Over a catalog whose periods are in range, repair is cancelled when its observer asks, or
holds an edit of the timetable it was given; it never faults. -/
theorem repairStage_orderly (hperiods : e.PeriodsInRange) :
    Triple (OnCatalog e : RunContext σ β → Prop) repairStage (fun _ ↦ OnCatalog e)
      (fun f _ ↦ f.Orderly) := by
  unfold repairStage
  refine Triple.get_bind fun c₁ hc₁ ↦ ?_
  generalize c₁.shelf.load c₁.store c₁.request.scope = loaded
  obtain ⟨loaded, store⟩ := loaded
  dsimp only
  generalize loaded.toOption.getD _ = table
  refine Triple.bind (Triple.set_of (Q := fun _ _ ↦ True) fun _ _ ↦ trivial) fun _ ↦ ?_
  generalize RepairConfig.mk _ _ _ _ _ _ _ = cfg
  let c₂ : RunContext σ β :=
    { c₁ with store, stats := { c₁.stats with qtableVersion := table.version } }
  have ht₀ := hc₁.getD
  -- the watch hands back the context with only progress reported
  obtain ⟨c₃, hw, hc₃⟩ := Timetable.repair_watch (I := c₂.Frame)
    (c₁.timetable.getD (Timetable.empty c₁.catalog)) c₁.domain table cfg
    ⟨c₂, repairNote c₁.config.every, fun c ↦ c.observer.halted⟩
    (fun c it total left h ↦ h.trans (repairNote_frame _ c it total left)) (.refl c₂)
  have hon : c₃.OnCatalog e := frameStable_onCatalog c₂ _ ⟨hc₁.catalog, hc₁.timetable⟩ hc₃
  have hcat : (c₁.timetable.getD (Timetable.empty c₁.catalog)).catalog = e := ht₀.catalog_eq
  have hrun := Timetable.repair_ok_or_stopped (hcat ▸ hperiods) c₁.domain table cfg
    ⟨c₂, repairNote c₁.config.every, fun c ↦ c.observer.halted⟩
  split <;> rename_i heq <;> rw [heq] at hw hrun <;> cases hw
  · exact Triple.bind (Triple.set_of (Q := fun _ _ ↦ True) fun _ _ ↦ trivial)
      fun _ ↦ Triple.throw_of _ fun _ _ ↦ trivial
  · -- a fault is neither a result nor a stop
    exfalso
    rcases hrun with ⟨_, _, _, _, h, -⟩ | ⟨_, _, _, h⟩ <;> cases h
  · obtain ⟨_, _, _, _, h, hed⟩ | ⟨_, _, _, h⟩ := hrun
    · cases h
      exact Triple.bind (Triple.set_of (Q := fun _ ↦ OnCatalog e) fun _ _ ↦
        hon.hold (ht₀.trans hed) rfl rfl) fun _ ↦ Triple.pure_of _ fun _ h ↦ h
    · cases h

theorem commitTable_orderly :
    Triple (OnCatalog e : RunContext σ β → Prop) commitTable (fun _ ↦ OnCatalog e)
      (fun f _ ↦ f.Orderly) :=
  Triple.of_sure (Sure.framed (fun c _ ↦ commitTable_frame c) frameStable_onCatalog)

/-- A stage with the check before it stops the run only in an orderly way when its body does: a
broken invariant found by validation is orderly too. -/
theorem stage_orderly (s : Stage) (exclusive validate commit : Bool)
    {body : RunStep σ β (List (String × Int))}
    (hbody : Triple (OnCatalog e) body (fun _ ↦ OnCatalog e) (fun f _ ↦ f.Orderly)) :
    Triple (OnCatalog e) (boundary s *> execute s exclusive validate commit body)
      (fun _ ↦ OnCatalog e) (fun f _ ↦ f.Orderly) := by
  refine Triple.seqRight (boundary_orderly s) fun _ ↦ ?_
  refine execute_triple s exclusive validate commit
    (transition_keeps (fun _ _ h hm ↦ h.moved hm) _ _ _ _) hbody (fun _ _ _ ↦ trivial) ?_
    fun c _ (h : c.OnCatalog e) ↦ ⟨h.catalog, h.timetable⟩
  cases commit
  · exact Triple.pure_of () fun _ h ↦ h
  · rw [if_pos rfl]
    exact commitTable_orderly

/-- The steps of a run on a catalog whose periods are in range stop it only in an orderly way. -/
theorem main_orderly (he : e.Indexed) (hperiods : e.PeriodsInRange) (strategy : StrategyConfig) :
    Triple (OnCatalog e : RunContext σ β → Prop) (main e strategy) (fun _ _ ↦ True)
      (fun f _ ↦ f.Orderly) := by
  unfold main
  refine Triple.bind (publish_keeps (fun _ _ h hm ↦ h.moved hm) _ _ _ _) fun _ ↦ ?_
  refine Triple.bind (Q := fun _ ↦ OnCatalog e) ?_ fun _ ↦ ?_
  · unfold stages
    refine Triple.forIn_cons (stage_orderly _ _ _ _ clusterStage_orderly) ?_
    refine Triple.forIn_cons (stage_orderly _ _ _ _ solveStage_orderly) ?_
    refine Triple.forIn_cons (stage_orderly _ _ _ _ (refineStage_orderly he)) ?_
    refine Triple.forIn_cons (stage_orderly _ _ _ _ (repairStage_orderly hperiods)) ?_
    exact Triple.forIn_nil
  · -- finalizing and completing only report
    refine Triple.bind (transition_keeps (fun _ _ h hm ↦ h.moved hm) _ _ _ _) fun _ ↦
      Triple.get_bind fun c₀ _ ↦ ?_
    exact Triple.bind ((transition_keeps (P := fun _ ↦ True) (fun _ _ _ _ ↦ trivial) _ _ _ _).mono
      (fun _ _ ↦ trivial) (fun _ _ h ↦ h) fun _ _ h ↦ h) fun _ ↦ Triple.pure_of _ fun _ _ ↦ trivial

/-- Describing a stop reports a fault only for a fault inside a stage. -/
theorem fail_eq_fault {f : StageFault} {c : RunContext σ β} {m : String}
    (h : ((fail f).run c).1 = .fault m) : f = .fault m := by
  cases f
  case fault m' =>
    cases h
    rfl
  all_goals
    simp only [fail] at h
    cases h

end RunStep

/-- A run on records whose periods are all non-negative, with triples that fit in 64 bits, never
faults, whatever its memory monitor samples and wherever its observer stops it: it completes, or
stops in an orderly way. -/
theorem generate_never_faults {σ β : Type} (config : PipelineConfig) (probe : Option MemoryProbe)
    (shelf : TableShelf β) (store : β) (req : RunRequest) (o : Observer σ) {d : Dataset}
    {e : Catalog} (hb : Catalog.build d = .ok e) (hreq : req.catalog = some e)
    (hperiods : ∀ s ∈ d.timeSlots, 0 ≤ s.period ∧ s.period * 3 < Int.pow 2 63) (m : String) :
    (generate config probe shelf store req o).result ≠ .error (.fault m) := by
  have hmain := RunStep.main_orderly (σ := σ) (β := β) (Catalog.indexed_of_build hb)
    (Catalog.periodsInRange_of_build hb hperiods) (config.strategyFor req)
    (RunContext.start config probe shelf store req e (config.strategyFor req) o)
    ⟨rfl, fun _ h ↦ (nomatch h)⟩
  unfold generate
  rw [hreq]
  dsimp only
  split <;> rename_i heq <;> rw [heq] at hmain
  · exact fun h ↦ (nomatch h)
  · -- the run stopped in an orderly way, which is not described as a fault
    rename_i f c
    intro h
    have hf := RunStep.fail_eq_fault (Except.error.inj h)
    subst hf
    exact hmain

/-- On records whose periods are all non-negative with triples that fit in 64 bits, repair's part
of the day, the slot's period tripled in 64 bits over the periods of the longest day, is in the
three parts for every candidate slot of every session of every timetable over the catalog, so
observing never faults; repair never faults, whatever its watch does, and no run faults, whatever
its memory monitor samples and wherever its observer stops it. Whatever the periods, the part of a
slot is never above the last third, and it is non-negative exactly when the tripled period stays
above minus the periods of the longest day. -/
theorem faults_only_on_negative_parts {d : Dataset} {e : Catalog} (hb : Catalog.build d = .ok e)
    (hperiods : ∀ s ∈ d.timeSlots, 0 ≤ s.period ∧ s.period * 3 < Int.pow 2 63) :
    (∀ slot, e.dayPart slot ≤ 2 ∧
      (0 ≤ e.dayPart slot ↔ -(max e.periodsPerDay 1) < wrapInt64 (slot.period * 3))) ∧
    (∀ (t : Timetable) (dom : Domain) (key : SessionKey), t.catalog = e →
      (∀ id ∈ Domain.slotsOf (dom.forKey key),
        0 ≤ e.dayPart ((e.slot? id).getD {}) ∧ e.dayPart ((e.slot? id).getD {}) ≤ 2) ∧
      ∀ conflict, ∃ sit, t.observe dom ⟨key, conflict⟩ = .ok sit) ∧
    (∀ {σ : Type} (t : Timetable) (dom : Domain) (table : QTable) (cfg : RepairConfig)
      (w : RepairWatch σ), t.catalog = e →
        ∀ m x w', t.repair dom table cfg w ≠ (.error (.fault m, x), w')) ∧
    (∀ {σ β : Type} (config : PipelineConfig) (probe : Option MemoryProbe) (shelf : TableShelf β)
      (store : β) (req : RunRequest) (o : Observer σ), req.catalog = some e →
      ∀ m, (generate config probe shelf store req o).result ≠ .error (.fault m)) := by
  have he := Catalog.periodsInRange_of_build hb hperiods
  refine ⟨fun slot ↦ ⟨e.dayPart_le_two slot, e.dayPart_nonneg_iff slot⟩,
    fun t dom key ht ↦ ⟨fun id _ ↦ ?_, fun conflict ↦ ?_⟩, fun t dom table cfg w ht m x w' h ↦ ?_,
    fun config probe shelf store req o hreq m ↦
      generate_never_faults config probe shelf store req o hb hreq hperiods m⟩
  · -- every slot of the catalog, and the blank one, has its period in range
    exact ⟨Catalog.dayPart_nonneg (he.period_slot? id).1 (he.period_slot? id).2,
      e.dayPart_le_two _⟩
  · exact Timetable.observe_eq_ok (ht ▸ he) dom ⟨key, conflict⟩
  · -- a repair over periods in range returns a result or is stopped
    rcases Timetable.repair_ok_or_stopped (ht ▸ he) dom table cfg w with
      ⟨_, _, _, _, h', -⟩ | ⟨_, _, _, h'⟩ <;> rw [h] at h' <;> cases h'

/-- On records with one slot at period zero, observing, repair and a run of the balanced strategy
never fault. -/
theorem faults_only_on_negative_parts_singleRecords :
    ∃ e, Catalog.build Domain.singleRecords = .ok e ∧
      (∀ s ∈ Domain.singleRecords.timeSlots, 0 ≤ s.period ∧ s.period * 3 < Int.pow 2 63) ∧
      (∃ sit, (Timetable.empty e).observe (Domain.build e) ⟨⟨"c", 0⟩, "room"⟩ = .ok sit) ∧
      (∀ m x w', (Timetable.empty e).repair (Domain.build e) {} { iterations := 3 }
        (⟨(), fun s _ _ _ ↦ s, fun _ ↦ false⟩ : RepairWatch Unit) ≠ (.error (.fault m, x), w')) ∧
      ∀ m, (generate .oneCommunityUntimed none TableStore.shelf {}
        { jobId := "j", catalog := some e, quality := "balanced", scope := "s", seed := 1 }
        (⟨(), fun s _ ↦ s, fun _ ↦ false⟩ : Observer Unit)).result ≠ .error (.fault m) := by
  cases hb : Catalog.build Domain.singleRecords with
  | error err =>
    simp [Domain.singleRecords, Catalog.build, Catalog.indexFaculty, Catalog.indexSlots,
      Catalog.indexRooms, Catalog.indexCourses, Catalog.courseStudents, stableSort, dedupStrings,
      sortStrings] at hb
    cases hb
  | ok e =>
    have hslots : ∀ s ∈ Domain.singleRecords.timeSlots, 0 ≤ s.period ∧ s.period * 3 < Int.pow 2 63 := by
      simp only [Domain.singleRecords, List.mem_singleton, forall_eq]
      decide
    obtain ⟨-, hobserve, hrepair, hrun⟩ := faults_only_on_negative_parts hb hslots
    exact ⟨e, rfl, hslots, (hobserve _ _ ⟨"c", 0⟩ rfl).2 "room", hrepair _ _ _ _ _ rfl,
      hrun .oneCommunityUntimed none TableStore.shelf {} _ _ rfl⟩

/-! ## A slot before the first period -/

/-- Records with one course of two sessions, one member of staff, one room, and one slot whose
period is `-1`. -/
def negativePeriodRecords : Dataset :=
  { courses := [{ id := "c", facultyId := "f", sessions := 2 }], faculty := [{ id := "f" }],
    rooms := [{ id := "r", capacity := 10 }], timeSlots := [{ id := "s", period := -1 }] }

/-- The catalog of the records: its one day ends at period `-1`, so it counts no periods, and the
one course can only meet in the one room in the one slot. -/
theorem build_negativePeriodRecords :
    ∃ e, Catalog.build negativePeriodRecords = .ok e ∧
      e.courses = #[{ id := "c", facultyId := "f", sessions := 2 }] ∧
      e.slot? "s" = some { id := "s", period := -1 } ∧ e.periodsPerDay = 0 ∧
      e.candidates { id := "c", facultyId := "f", sessions := 2 } = [⟨"s", "r"⟩] := by
  cases hb : Catalog.build negativePeriodRecords with
  | error err =>
    simp [negativePeriodRecords, Catalog.build, Catalog.indexFaculty, Catalog.indexSlots,
      Catalog.indexRooms, Catalog.indexCourses, Catalog.courseStudents, stableSort, dedupStrings,
      sortStrings] at hb
    cases hb
  | ok e =>
    refine ⟨e, rfl, ?_⟩
    simp [negativePeriodRecords, Catalog.build, Catalog.indexFaculty, Catalog.indexSlots,
      Catalog.indexRooms, Catalog.indexCourses, Catalog.courseStudents, stableSort, dedupStrings,
      sortStrings] at hb
    cases hb
    -- a map with one entry lists that one entry
    have hlast : ((∅ : Std.HashMap Int Int).insert 0 (-1)).toList = [(0, -1)] := by
      simpa using Std.HashMap.toList_insert_perm (m := (∅ : Std.HashMap Int Int)) (k := 0) (v := -1)
    refine ⟨rfl, by simp [Catalog.slot?], ?_, ?_⟩
    · simp [Catalog.periodsPerDay, Std.HashMap.fold_eq_foldl_toList, hlast]
      rfl
    · simp [Catalog.candidates, Catalog.roomSuits, Catalog.facultyAvailable, Catalog.nameSet,
        Catalog.enrollment, Catalog.students, stableSort, Std.HashSet.toList_empty,
        -Std.HashSet.all_toList]

/-- On the records, the one slot's part of the day is `-3`, and observing a missing session of the
empty timetable, which is reachable, faults at that index. -/
theorem observe_faults_on_negative_period :
    ∃ e, Catalog.build negativePeriodRecords = .ok e ∧ (Timetable.empty e).Reachable ∧
      (⟨"c", 0⟩ : SessionKey) ∈ (Timetable.empty e).missing ∧
      e.dayPart ((e.slot? "s").getD {}) = -3 ∧
      ∀ conflict, (Timetable.empty e).observe (Domain.build e) ⟨⟨"c", 0⟩, conflict⟩ =
        .error (indexFault (-3) none) := by
  obtain ⟨e, hb, hcourses, hslot, hperiods, hcand⟩ := build_negativePeriodRecords
  have hpart : e.dayPart ((e.slot? "s").getD {}) = -3 := by
    rw [hslot, Option.getD_some, Catalog.dayPart, hperiods]
    decide
  have hslots : Domain.slotsOf ((Domain.build e).forKey ⟨"c", 0⟩) = ["s"] := by
    rw [Domain.forKey, Domain.forCourse_build_single hcourses, hcand]
    simp [Domain.slotsOf, dedupStrings]
  refine ⟨e, hb, .empty (Catalog.indexed_of_build hb), by simp [Timetable.missing, hcourses], hpart,
    fun conflict ↦ ?_⟩
  -- the one candidate slot has no part of the day
  simp only [Timetable.observe, Timetable.densityBand, Timetable.empty_catalog, hslots]
  simp [hpart]
  rfl

end Timetabling
