import Timetabling.Pipeline.Generation
import Timetabling.Proofs.Clustering.Partition

/-! # Triples for the steps of a run

A run is a sequence of steps, each reading and changing the run's context, any of which may stop
the run with a fault. `RunStep.Sure P x Q` says that from every context satisfying `P` the step
`x` succeeds and leaves a value and a context satisfying `Q`; `RunStep.Fails P x R` says that it
stops with a fault, and the fault and the context left satisfy `R`. Both compose along `bind`
and along the list of stages a run goes through.

Most steps keep everything but the run's records: the stage reached, the observer's state, the
statistics, the trained table and the store. `RunContext.Frame c c'` says that `c'` differs from
`c` in nothing else, and the steps that only keep records are stated with it. -/

namespace Timetabling

namespace RunContext

variable {σ β : Type}

/-- `c'` is `c` with at most its records changed: the stage, the observer's state, the
statistics, the trained table and the store. -/
structure Frame (c c' : RunContext σ β) : Prop where
  request : c'.request = c.request
  catalog : c'.catalog = c.catalog
  config : c'.config = c.config
  strategy : c'.strategy = c.strategy
  domain : c'.domain = c.domain
  clusters : c'.clusters = c.clusters
  timetable : c'.timetable = c.timetable
  probe : c'.probe = c.probe
  critical : c'.critical = c.critical
  warning : c'.warning = c.warning
  stopped : c'.observer.stopped = c.observer.stopped

namespace Frame

variable {c c₁ c₂ : RunContext σ β}

protected theorem refl (c : RunContext σ β) : c.Frame c :=
  ⟨rfl, rfl, rfl, rfl, rfl, rfl, rfl, rfl, rfl, rfl, rfl⟩

protected theorem trans (h₁ : c.Frame c₁) (h₂ : c₁.Frame c₂) : c.Frame c₂ :=
  ⟨h₂.request.trans h₁.request, h₂.catalog.trans h₁.catalog, h₂.config.trans h₁.config,
    h₂.strategy.trans h₁.strategy, h₂.domain.trans h₁.domain, h₂.clusters.trans h₁.clusters,
    h₂.timetable.trans h₁.timetable, h₂.probe.trans h₁.probe, h₂.critical.trans h₁.critical,
    h₂.warning.trans h₁.warning, h₂.stopped.trans h₁.stopped⟩

/-- Changing only records is a frame. -/
theorem records (c : RunContext σ β) (stage : Stage) (state : σ) (stats : RunStats)
    (trained : Option QTable) (store : β) :
    c.Frame { c with stage, observer := { c.observer with state }, stats, trained, store } :=
  ⟨rfl, rfl, rfl, rfl, rfl, rfl, rfl, rfl, rfl, rfl, rfl⟩

end Frame

/-- A property of contexts that no change of records affects. -/
def FrameStable (P : RunContext σ β → Prop) : Prop :=
  ∀ c c', P c → c.Frame c' → P c'

theorem frameStable_frame (c₀ : RunContext σ β) : FrameStable c₀.Frame :=
  fun _ _ h₁ h₂ ↦ h₁.trans h₂

/-- A run without a memory monitor or memory pressure, whose observer never asks it to stop. -/
structure Quiet (c : RunContext σ β) : Prop where
  probe : c.probe = none
  calm : c.critical = false
  steady : c.warning = false
  live : ∀ x, c.observer.stopped x = false

theorem Quiet.halted {c : RunContext σ β} (h : c.Quiet) : c.observer.halted = false :=
  h.live _

theorem frameStable_quiet : FrameStable (Quiet : RunContext σ β → Prop) :=
  fun _ _ h hf ↦ ⟨hf.probe.trans h.probe, hf.critical.trans h.calm, hf.warning.trans h.steady,
    fun x ↦ by rw [hf.stopped]; exact h.live x⟩

end RunContext

namespace RunStep

variable {σ β α γ : Type}

theorem run_bind_of_ok {x : RunStep σ β α} {f : α → RunStep σ β γ} {c c' : RunContext σ β} {a : α}
    (h : x.run.run c = (.ok a, c')) : (x >>= f).run.run c = (f a).run.run c' := by
  simp only [ExceptT.run_bind, StateT.run_bind, h]
  rfl

theorem run_bind_of_error {x : RunStep σ β α} {f : α → RunStep σ β γ} {c c' : RunContext σ β}
    {e : StageFault} (h : x.run.run c = (.error e, c')) :
    (x >>= f).run.run c = (.error e, c') := by
  simp only [ExceptT.run_bind, StateT.run_bind, h]
  rfl

/-! ## Steps that succeed -/

/-- From every context satisfying `P`, the step succeeds, and its value and the context it leaves
satisfy `Q`. -/
def Sure (P : RunContext σ β → Prop) (x : RunStep σ β α) (Q : α → RunContext σ β → Prop) : Prop :=
  ∀ c, P c → ∃ a c', x.run.run c = (.ok a, c') ∧ Q a c'

namespace Sure

variable {P P' : RunContext σ β → Prop} {Q Q' : α → RunContext σ β → Prop}
  {R : γ → RunContext σ β → Prop}

theorem pure_of (a : α) (h : ∀ c, P c → Q a c) : Sure P (pure a) Q :=
  fun c hc ↦ ⟨a, c, rfl, h c hc⟩

theorem bind {x : RunStep σ β α} {f : α → RunStep σ β γ} (hx : Sure P x Q)
    (hf : ∀ a, Sure (Q a) (f a) R) : Sure P (x >>= f) R := by
  intro c hc
  obtain ⟨a, c', hrun, hq⟩ := hx c hc
  obtain ⟨b, c'', hrun', hr⟩ := hf a c' hq
  exact ⟨b, c'', (run_bind_of_ok hrun).trans hrun', hr⟩

theorem mono {x : RunStep σ β α} (hx : Sure P x Q) (hP : ∀ c, P' c → P c)
    (hQ : ∀ a c, Q a c → Q' a c) : Sure P' x Q' := by
  intro c hc
  obtain ⟨a, c', hrun, hq⟩ := hx c (hP c hc)
  exact ⟨a, c', hrun, hQ a c' hq⟩

/-- A step is a function of its context, so what two triples say of it holds together. -/
theorem and {x : RunStep σ β α} (h₁ : Sure P x Q) (h₂ : Sure P x Q') :
    Sure P x fun a c ↦ Q a c ∧ Q' a c := by
  intro c hc
  obtain ⟨a, c', hrun, hq⟩ := h₁ c hc
  obtain ⟨a', c'', hrun', hq'⟩ := h₂ c hc
  rw [hrun, Prod.mk.injEq, Except.ok.injEq] at hrun'
  obtain ⟨rfl, rfl⟩ := hrun'
  exact ⟨a, c', hrun, hq, hq'⟩

theorem seqRight {x : RunStep σ β α} {y : RunStep σ β γ} (hx : Sure P x Q)
    (hy : ∀ a, Sure (Q a) y R) : Sure P (x *> y) R :=
  bind hx hy

/-- A step that reads the context: it suffices to know the context read. -/
theorem get_bind {f : RunContext σ β → RunStep σ β α} (h : ∀ c₀, P c₀ → Sure (· = c₀) (f c₀) Q) :
    Sure P (get >>= f) Q := by
  intro c hc
  obtain ⟨a, c', hrun, hq⟩ := h c hc c rfl
  exact ⟨a, c', (run_bind_of_ok (x := get) rfl).trans hrun, hq⟩

theorem set_of {Q : PUnit → RunContext σ β → Prop} {c' : RunContext σ β}
    (h : ∀ c, P c → Q ⟨⟩ c') : Sure P (set c' : RunStep σ β PUnit) Q :=
  fun c hc ↦ ⟨⟨⟩, c', rfl, h c hc⟩

theorem ite_of {p : Prop} [Decidable p] {x y : RunStep σ β α} (hx : p → Sure P x Q)
    (hy : ¬p → Sure P y Q) : Sure P (if p then x else y) Q := by
  by_cases hp : p
  · rw [if_pos hp]
    exact hx hp
  · rw [if_neg hp]
    exact hy hp

/-- A step that changes only records keeps every property that records do not affect. -/
theorem framed {x : RunStep σ β α} (hx : ∀ c₀, P c₀ → Sure (· = c₀) x fun _ c ↦ c₀.Frame c)
    (hP : RunContext.FrameStable P) : Sure P x fun _ ↦ P := by
  intro c hc
  obtain ⟨a, c', hrun, hf⟩ := hx c hc c rfl
  exact ⟨a, c', hrun, hP c c' hc hf⟩

/-! Running a list of steps in order, each from where the one before it left off. -/

theorem forIn_nil :
    Sure P (forIn ([] : List (RunStep σ β PUnit)) PUnit.unit fun st _ ↦ do
      st
      pure (ForInStep.yield PUnit.unit)) fun _ ↦ P := by
  rw [List.forIn_nil]
  exact pure_of _ fun _ h ↦ h

theorem forIn_cons {R : PUnit → RunContext σ β → Prop} {x : RunStep σ β PUnit}
    {xs : List (RunStep σ β PUnit)} (hx : Sure P x fun _ ↦ P')
    (hxs : Sure P' (forIn xs PUnit.unit fun st _ ↦ do
      st
      pure (ForInStep.yield PUnit.unit)) R) :
    Sure P (forIn (x :: xs) PUnit.unit fun st _ ↦ do
      st
      pure (ForInStep.yield PUnit.unit)) R := by
  rw [List.forIn_cons]
  refine bind (Q := fun r c ↦ r = .yield PUnit.unit ∧ P' c)
    (bind hx fun _ ↦ pure_of _ fun _ h ↦ ⟨rfl, h⟩) fun r ↦ ?_
  rintro c ⟨rfl, hc⟩
  exact hxs c hc

end Sure

/-! ## Steps that fail -/

/-- From every context satisfying `P`, the step stops with a fault, and the fault and the context
it leaves satisfy `R`. -/
def Fails (P : RunContext σ β → Prop) (x : RunStep σ β α) (R : StageFault → RunContext σ β → Prop) :
    Prop :=
  ∀ c, P c → ∃ f c', x.run.run c = (.error f, c') ∧ R f c'

namespace Fails

variable {P P' : RunContext σ β → Prop} {Q : α → RunContext σ β → Prop}
  {R R' : StageFault → RunContext σ β → Prop}

theorem mono {x : RunStep σ β α} (hx : Fails P x R) (hP : ∀ c, P' c → P c)
    (hR : ∀ f c, R f c → R' f c) : Fails P' x R' := by
  intro c hc
  obtain ⟨f, c', hrun, hr⟩ := hx c (hP c hc)
  exact ⟨f, c', hrun, hR f c' hr⟩

/-- What follows a failed step never runs. -/
theorem bind {x : RunStep σ β α} {f : α → RunStep σ β γ} (hx : Fails P x R) :
    Fails P (x >>= f) R := by
  intro c hc
  obtain ⟨e, c', hrun, hr⟩ := hx c hc
  exact ⟨e, c', run_bind_of_error hrun, hr⟩

/-- A step that succeeds, followed by one that fails. -/
theorem after {x : RunStep σ β α} {f : α → RunStep σ β γ} (hx : Sure P x Q)
    (hf : ∀ a, Fails (Q a) (f a) R) : Fails P (x >>= f) R := by
  intro c hc
  obtain ⟨a, c', hrun, hq⟩ := hx c hc
  obtain ⟨e, c'', hrun', hr⟩ := hf a c' hq
  exact ⟨e, c'', (run_bind_of_ok hrun).trans hrun', hr⟩

theorem get_bind {f : RunContext σ β → RunStep σ β α} (h : ∀ c₀, P c₀ → Fails (· = c₀) (f c₀) R) :
    Fails P (get >>= f) R := by
  intro c hc
  obtain ⟨e, c', hrun, hr⟩ := h c hc c rfl
  exact ⟨e, c', (run_bind_of_ok (x := get) rfl).trans hrun, hr⟩

theorem throw_of (e : StageFault) (h : ∀ c, P c → R e c) :
    Fails P (throw e : RunStep σ β α) R :=
  fun c hc ↦ ⟨e, c, rfl, h c hc⟩

theorem ite_of {p : Prop} [Decidable p] {x y : RunStep σ β α} (hx : p → Fails P x R)
    (hy : ¬p → Fails P y R) : Fails P (if p then x else y) R := by
  by_cases hp : p
  · rw [if_pos hp]
    exact hx hp
  · rw [if_neg hp]
    exact hy hp

/-- A list of steps whose first step fails. -/
theorem forIn_head {x : RunStep σ β PUnit} {xs : List (RunStep σ β PUnit)} (hx : Fails P x R) :
    Fails P (forIn (x :: xs) PUnit.unit fun st _ ↦ do
      st
      pure (ForInStep.yield PUnit.unit)) R := by
  rw [List.forIn_cons]
  exact bind (bind hx)

/-- A list of steps whose first step succeeds and whose rest fails. -/
theorem forIn_cons {x : RunStep σ β PUnit} {xs : List (RunStep σ β PUnit)}
    (hx : Sure P x fun _ ↦ P')
    (hxs : Fails P' (forIn xs PUnit.unit fun st _ ↦ do
      st
      pure (ForInStep.yield PUnit.unit)) R) :
    Fails P (forIn (x :: xs) PUnit.unit fun st _ ↦ do
      st
      pure (ForInStep.yield PUnit.unit)) R := by
  rw [List.forIn_cons]
  refine after (Q := fun r c ↦ r = .yield PUnit.unit ∧ P' c)
    (Sure.bind hx fun _ ↦ Sure.pure_of _ fun _ h ↦ ⟨rfl, h⟩) fun r ↦ ?_
  rintro c ⟨rfl, hc⟩
  exact hxs c hc

end Fails

/-! ## The steps of a run -/

open RunContext

theorem publish_frame (stage : Stage) (fraction : Float) (step : String)
    (detail : Option (List (String × DetailValue))) (c₀ : RunContext σ β) :
    Sure (· = c₀) (publish stage fraction step detail) fun _ c ↦ c₀.Frame c := by
  intro c hc
  subst c
  exact ⟨(), _, rfl, Frame.records c₀ _ _ c₀.stats c₀.trained c₀.store⟩

theorem publish_run_frame (stage : Stage) (fraction : Float) (step : String)
    (detail : Option (List (String × DetailValue))) (c : RunContext σ β) :
    c.Frame ((publish stage fraction step detail : RunStep σ β Unit).run.run c).2 :=
  Frame.records c _ _ c.stats c.trained c.store

theorem transition_frame (target : Stage) (fraction : Float) (step : String)
    (detail : Option (List (String × DetailValue))) (c₀ : RunContext σ β) :
    Sure (· = c₀) (transition target fraction step detail) fun _ c ↦ c₀.Frame c := by
  unfold transition
  refine Sure.get_bind fun c₁ hc₁ ↦ ?_
  subst hc₁
  -- a move the stage order forbids is dropped; any other is made and reported
  refine Sure.ite_of (fun _ ↦ Sure.ite_of (fun _ ↦ Sure.pure_of () fun _ h ↦ h ▸ .refl _)
    fun _ ↦ ?_) fun _ ↦ publish_frame target fraction step detail c₁
  refine Sure.bind (Sure.set_of (Q := fun _ c ↦ c₁.Frame c) fun _ _ ↦
    Frame.records c₁ target c₁.observer.state c₁.stats c₁.trained c₁.store) fun _ ↦ ?_
  exact Sure.framed (fun c _ ↦ publish_frame target fraction step detail c) (frameStable_frame c₁)

/-- A run its observer does not stop passes the check to stop untouched. -/
theorem checkStop_eq (c₀ : RunContext σ β) (h : c₀.observer.halted = false) :
    Sure (· = c₀) checkStop fun _ c ↦ c = c₀ := by
  unfold checkStop
  refine Sure.get_bind fun c₁ hc₁ ↦ ?_
  subst hc₁
  rw [h]
  exact Sure.pure_of () fun _ h ↦ h

/-- Without a monitor, pressure or a request to stop, the check before a stage does nothing. -/
theorem boundary_frame (next : Stage) (c₀ : RunContext σ β) (h : c₀.Quiet) :
    Sure (· = c₀) (boundary next) fun _ c ↦ c₀.Frame c := by
  unfold boundary
  refine Sure.bind (checkStop_eq c₀ h.halted) fun _ ↦ Sure.get_bind fun c₁ hc₁ ↦ ?_
  subst hc₁
  -- nothing is sampled, there is no pressure, and no warning degrades the strategy
  rw [h.probe]
  simp only []
  refine Sure.get_bind fun c₂ hc₂ ↦ ?_
  subst hc₂
  rw [h.calm, h.steady]
  exact Sure.ite_of (fun h ↦ absurd h (by decide)) fun _ ↦ Sure.ite_of (fun h ↦ absurd h (by simp))
    fun _ ↦ Sure.pure_of () fun _ h ↦ h ▸ .refl _

/-- Clustering records the clusters of the catalog's courses, and keeps the rest. -/
theorem clusterStage_frame (c₀ : RunContext σ β) (h : c₀.Quiet) :
    Sure (· = c₀) clusterStage fun _ c ↦
      Frame { c₀ with
        clusters := (clusterCoursesBy c₀.config.detector c₀.catalog
          { edgeThreshold := c₀.config.edgeThreshold, maxClusterSize := c₀.strategy.maxClusterSize,
            seed := c₀.request.seed }).1 } c := by
  unfold clusterStage
  refine Sure.get_bind fun c₁ hc₁ ↦ ?_
  subst hc₁
  dsimp only
  -- with or without the check to stop, only the clusters and their figures are recorded
  refine Sure.ite_of (fun _ ↦ Sure.bind (checkStop_eq c₁ h.halted) fun _ ↦ ?_) fun _ ↦ ?_
  all_goals
    exact Sure.bind (Sure.set_of (Q := fun _ c ↦ Frame { c₁ with clusters := _ } c) fun _ _ ↦
      Frame.records _ c₁.stage c₁.observer.state _ c₁.trained c₁.store)
      fun _ ↦ Sure.pure_of _ fun _ h ↦ h

/-- Solving records the merge of the clusters' timetables, and keeps the rest. -/
theorem solveStage_frame (c₀ : RunContext σ β) (h : c₀.Quiet) :
    Sure (· = c₀) solveStage fun _ c ↦
      Frame { c₀ with timetable := some (merge c₀.catalog c₀.domain (c₀.clusters.map
        fun (cl : Cluster) ↦ cl.solve c₀.catalog c₀.domain (c₀.strategy.solverMode == "exact")
          c₀.strategy.solverTimeout (c₀.config.pastDeadline cl) c₀.strategy.solverNodeBudget)).1 }
        c := by
  unfold solveStage
  refine Sure.bind (checkStop_eq c₀ h.halted) fun _ ↦ Sure.get_bind fun c₁ hc₁ ↦ ?_
  subst hc₁
  dsimp only
  exact Sure.bind (Sure.set_of (Q := fun _ c ↦ Frame { c₁ with timetable := _ } c) fun _ _ ↦
    Frame.records _ c₁.stage c₁.observer.state _ c₁.trained c₁.store)
    fun _ ↦ Sure.pure_of _ fun _ h ↦ h

/-- Committing the trained table touches only the trained table, the store and the statistics. -/
theorem commitTable_frame (c₀ : RunContext σ β) :
    Sure (· = c₀) commitTable fun _ c ↦ c₀.Frame c := by
  unfold commitTable
  refine Sure.get_bind fun c₁ hc₁ ↦ ?_
  subst hc₁
  split
  · exact Sure.pure_of () fun _ h ↦ h ▸ .refl _
  · -- a saved table or a refused one
    refine Sure.bind (Sure.set_of (Q := fun _ _ ↦ True) fun _ _ ↦ trivial) fun _ ↦ ?_
    split
    · exact Sure.set_of fun _ _ ↦ Frame.records c₁ c₁.stage c₁.observer.state c₁.stats none _
    · exact Sure.set_of fun _ _ ↦ Frame.records c₁ c₁.stage c₁.observer.state _ none _

theorem refineNote_frame (every : Nat) (c : RunContext σ β) (gen : Nat) (total : Int)
    (best : Fitness) : c.Frame (refineNote every c gen total best) := by
  unfold refineNote
  split
  · exact .refl c
  · exact publish_run_frame _ _ _ _ c

theorem repairNote_frame (every : Nat) (c : RunContext σ β) (it : Nat) (total : Int)
    (remaining : Nat) : c.Frame (repairNote every c it total remaining) := by
  unfold repairNote
  split
  · exact .refl c
  · exact publish_run_frame _ _ _ _ c

section Execute

variable {P Q : RunContext σ β → Prop} (hP : FrameStable P)

include hP in
/-- A stage succeeds when its body does and every timetable it validates passes; everything but
the body keeps only records. -/
theorem execute_sure (hQ : FrameStable Q) (stage : Stage) (exclusive validate commit : Bool)
    {body : RunStep σ β (List (String × Int))} (hbody : Sure P body fun _ ↦ Q)
    (hvalid : validate = true → ∀ c t, Q c → c.timetable = some t → t.validate = .ok ()) :
    Sure P (execute stage exclusive validate commit body) fun _ ↦ Q := by
  unfold execute
  refine Sure.bind (Sure.framed (fun c _ ↦ transition_frame stage 0 "started" none c) hP)
    fun _ ↦ Sure.bind hbody fun _ ↦ Sure.get_bind fun c₀ hc₀ ↦ ?_
  dsimp only
  -- the timetable held passes validation, so only the commit and the report remain
  split
  split
  rw [hvalid ‹_› c₀ _ hc₀ ‹_›]
  dsimp only
  all_goals
    refine Sure.ite_of (fun _ ↦ Sure.bind ((Sure.framed (fun c _ ↦ commitTable_frame c) hQ).mono
      (fun _ h ↦ h ▸ hc₀) fun _ _ h ↦ h) fun _ ↦ ?_) fun _ ↦ Sure.mono ?_ (fun _ h ↦ h ▸ hc₀)
      fun _ _ h ↦ h
  all_goals
    exact Sure.get_bind fun c₁ hc₁ ↦ Sure.set_of fun _ _ ↦
      hQ c₁ _ hc₁ (Frame.records c₁ c₁.stage c₁.observer.state _ c₁.trained c₁.store)

include hP in
/-- A validating stage whose body leaves a timetable that fails validation stops with the broken
invariant. -/
theorem execute_fails (stage : Stage) (exclusive commit : Bool)
    {body : RunStep σ β (List (String × Int))} {t : Timetable} {m : String}
    (hbody : Sure P body fun _ c ↦ c.timetable = some t) (hv : t.validate = .error m) :
    Fails P (execute stage exclusive true commit body) fun f _ ↦ f = .invariant m := by
  unfold execute
  refine Fails.after (Sure.framed (fun c _ ↦ transition_frame stage 0 "started" none c) hP)
    fun _ ↦ Fails.after hbody fun _ ↦ Fails.get_bind fun c₀ hc₀ ↦ ?_
  dsimp only
  rw [hc₀]
  dsimp only
  rw [hv, if_pos rfl]
  exact Fails.bind (Fails.throw_of _ fun _ _ ↦ rfl)

end Execute

end RunStep

/-- The configuration of the runs on fixed records below: the courses of the kept pairs form one
community, and no search deadline passes. -/
def PipelineConfig.oneCommunityUntimed : PipelineConfig :=
  { detector := oneCommunity, pastDeadline := fun _ _ ↦ false }

end Timetabling
