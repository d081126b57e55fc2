import Timetabling.Proofs.Pipeline.Steps
import Timetabling.Proofs.Repair.Run

/-! # Steps that may succeed or fail

`RunStep.Sure` and `RunStep.Fails` follow runs whose outcome is known in advance. A run with a
memory monitor, or whose observer may ask it to stop, can end at every stage boundary, and repair
can fault; `RunStep.Triple P x Q R` says what holds either way: from every context satisfying `P`
the step `x` succeeds, with a value and a context satisfying `Q`, or stops with a fault, the fault
and the context satisfying `R`.

Most steps touch neither the stage, nor the observer, nor what the run keeps of the Q-table:
`RunContext.Settled` names what they keep. The steps that report progress say which events the
observer heard (`Observer.Heard`). -/

namespace Timetabling

namespace RunStep

variable {σ β α γ : Type}

/-- What the outcome of a step and the context it leaves satisfy: `Q` on success, `R` on a
fault. -/
def Ends (Q : α → RunContext σ β → Prop) (R : StageFault → RunContext σ β → Prop) :
    Except StageFault α × RunContext σ β → Prop
  | (.ok a, c) => Q a c
  | (.error f, c) => R f c

@[simp] theorem ends_ok {Q : α → RunContext σ β → Prop} {R : StageFault → RunContext σ β → Prop}
    (a : α) (c : RunContext σ β) : Ends Q R (.ok a, c) = Q a c := rfl

@[simp] theorem ends_error {Q : α → RunContext σ β → Prop} {R : StageFault → RunContext σ β → Prop}
    (f : StageFault) (c : RunContext σ β) : Ends Q R (.error f, c) = R f c := rfl

/-- From every context satisfying `P`, the step either succeeds, and its value and the context it
leaves satisfy `Q`, or stops with a fault, and the fault and the context it leaves satisfy `R`. -/
def Triple (P : RunContext σ β → Prop) (x : RunStep σ β α) (Q : α → RunContext σ β → Prop)
    (R : StageFault → RunContext σ β → Prop) : Prop :=
  ∀ c, P c → Ends Q R (x.run.run c)

namespace Triple

variable {P P' : RunContext σ β → Prop} {Q Q' : α → RunContext σ β → Prop}
  {R R' : StageFault → RunContext σ β → Prop} {S : γ → RunContext σ β → Prop}

theorem pure_of (a : α) (h : ∀ c, P c → Q a c) : Triple P (pure a) Q R :=
  fun c hc ↦ h c hc

theorem throw_of (f : StageFault) (h : ∀ c, P c → R f c) : Triple P (throw f : RunStep σ β α) Q R :=
  fun c hc ↦ h c hc

theorem bind {x : RunStep σ β α} {f : α → RunStep σ β γ} (hx : Triple P x Q R)
    (hf : ∀ a, Triple (Q a) (f a) S R) : Triple P (x >>= f) S R := by
  intro c hc
  have hx := hx c hc
  -- the step either hands its value on or stops the rest
  rcases hrun : x.run.run c with ⟨_ | a, c'⟩
  · rw [hrun] at hx
    rw [run_bind_of_error hrun]
    exact hx
  · rw [hrun] at hx
    rw [run_bind_of_ok hrun]
    exact hf a c' hx

theorem seqRight {x : RunStep σ β α} {y : RunStep σ β γ} (hx : Triple P x Q R)
    (hy : ∀ a, Triple (Q a) y S R) : Triple P (x *> y) S R :=
  bind hx hy

theorem mono {x : RunStep σ β α} (hx : Triple P x Q R) (hP : ∀ c, P' c → P c)
    (hQ : ∀ a c, Q a c → Q' a c) (hR : ∀ f c, R f c → R' f c) : Triple P' x Q' R' := by
  intro c hc
  have hx := hx c (hP c hc)
  rcases hrun : x.run.run c with ⟨_ | a, c'⟩ <;> rw [hrun] at hx
  · exact hR _ c' hx
  · exact hQ a c' hx

/-- A step that reads the context: it suffices to know the context read. -/
theorem get_bind {f : RunContext σ β → RunStep σ β α} (h : ∀ c₀, P c₀ → Triple (· = c₀) (f c₀) Q R) :
    Triple P (get >>= f) Q R :=
  fun c hc ↦ h c hc c rfl

theorem set_of {Q : PUnit → RunContext σ β → Prop} {c' : RunContext σ β}
    (h : ∀ c, P c → Q ⟨⟩ c') : Triple P (set c' : RunStep σ β PUnit) Q R :=
  fun c hc ↦ h c hc

theorem ite_of {p : Prop} [Decidable p] {x y : RunStep σ β α} (hx : p → Triple P x Q R)
    (hy : ¬p → Triple P y Q R) : Triple P (if p then x else y) Q R := by
  by_cases hp : p
  · rw [if_pos hp]
    exact hx hp
  · rw [if_neg hp]
    exact hy hp

/-- A step known to succeed. -/
theorem of_sure {x : RunStep σ β α} (hx : Sure P x Q) : Triple P x Q R := by
  intro c hc
  obtain ⟨a, c', hrun, hq⟩ := hx c hc
  rw [hrun]
  exact hq

/-! Running a list of steps in order, each from where the one before it left off. -/

theorem forIn_nil :
    Triple P (forIn ([] : List (RunStep σ β PUnit)) PUnit.unit fun st _ ↦ do
      st
      pure (ForInStep.yield PUnit.unit)) (fun _ ↦ P) R :=
  of_sure Sure.forIn_nil

theorem forIn_cons {T : PUnit → RunContext σ β → Prop} {x : RunStep σ β PUnit}
    {xs : List (RunStep σ β PUnit)} (hx : Triple P x (fun _ ↦ P') R)
    (hxs : Triple P' (forIn xs PUnit.unit fun st _ ↦ do
      st
      pure (ForInStep.yield PUnit.unit)) T R) :
    Triple P (forIn (x :: xs) PUnit.unit fun st _ ↦ do
      st
      pure (ForInStep.yield PUnit.unit)) T R := by
  rw [List.forIn_cons]
  refine bind (Q := fun r c ↦ r = .yield PUnit.unit ∧ P' c)
    (bind hx fun _ ↦ pure_of _ fun _ h ↦ ⟨rfl, h⟩) fun r ↦ ?_
  rintro c ⟨rfl, hc⟩
  exact hxs c hc

/-- A step that makes only changes a property survives keeps it, whether it succeeds or fails. -/
theorem lift {I : RunContext σ β → Prop} {Rel : RunContext σ β → RunContext σ β → Prop}
    {x : RunStep σ β α} (hI : ∀ c c', I c → Rel c c' → I c')
    (hx : ∀ c₀, Triple (· = c₀) x (fun _ ↦ Rel c₀) (fun _ ↦ Rel c₀)) :
    Triple I x (fun _ ↦ I) (fun _ ↦ I) := by
  intro c hc
  have h := hx c c rfl
  rcases hrun : x.run.run c with ⟨_ | a, c'⟩ <;> rw [hrun] at h
  · exact hI c c' hc h
  · exact hI c c' hc h

end Triple

end RunStep

namespace Observer

variable {σ : Type}

/-- The observer after receiving the events `evs`, in order. -/
def hear (o : Observer σ) (evs : List ProgressEvent) : Observer σ :=
  evs.foldl deliver o

@[simp] theorem hear_nil (o : Observer σ) : o.hear [] = o := rfl

theorem hear_append (o : Observer σ) (evs evs' : List ProgressEvent) :
    o.hear (evs ++ evs') = (o.hear evs).hear evs' :=
  List.foldl_append ..

@[simp] theorem hear_singleton (o : Observer σ) (e : ProgressEvent) : o.hear [e] = o.deliver e :=
  rfl

@[simp] theorem receive_hear (o : Observer σ) (evs : List ProgressEvent) :
    (o.hear evs).receive = o.receive := by
  induction evs generalizing o with
  | nil => rfl
  | cons e evs ih => exact ih (o.deliver e)

@[simp] theorem stopped_hear (o : Observer σ) (evs : List ProgressEvent) :
    (o.hear evs).stopped = o.stopped := by
  induction evs generalizing o with
  | nil => rfl
  | cons e evs ih => exact ih (o.deliver e)

/-- `o'` is `o` after receiving events of the stage `s` only. -/
def Heard (s : Stage) (o o' : Observer σ) : Prop :=
  ∃ evs : List ProgressEvent, (∀ e ∈ evs, e.stage = s) ∧ o' = o.hear evs

namespace Heard

variable {s : Stage} {o o₁ o₂ : Observer σ}

protected theorem refl (s : Stage) (o : Observer σ) : Heard s o o :=
  ⟨[], by simp, rfl⟩

protected theorem trans (h₁ : Heard s o o₁) (h₂ : Heard s o₁ o₂) : Heard s o o₂ := by
  obtain ⟨evs, hs, rfl⟩ := h₁
  obtain ⟨evs', hs', rfl⟩ := h₂
  refine ⟨evs ++ evs', fun e he ↦ ?_, (hear_append o evs evs').symm⟩
  rcases List.mem_append.mp he with he | he
  · exact hs e he
  · exact hs' e he

theorem deliver (h : Heard s o o₁) {e : ProgressEvent} (he : e.stage = s) :
    Heard s o (o₁.deliver e) :=
  h.trans ⟨[e], fun _ h ↦ (List.mem_singleton.mp h) ▸ he, rfl⟩

end Heard

end Observer

namespace RunContext

variable {σ β : Type}

/-- `c'` keeps what `c` records of the run's progress and of its Q-table: the stage, the
request, the store and the shelf it is reached through, the trained table, whether a save was
reported, and the strategy, but for degrading it. -/
structure Settled (c c' : RunContext σ β) : Prop where
  stage : c'.stage = c.stage
  request : c'.request = c.request
  store : c'.store = c.store
  shelf : c'.shelf = c.shelf
  trained : c'.trained = c.trained
  saved : c'.stats.qtableSaved = c.stats.qtableSaved
  strategy : ∃ n, c'.strategy = StrategyConfig.degrade^[n] c.strategy

namespace Settled

variable {c c₁ c₂ : RunContext σ β}

protected theorem refl (c : RunContext σ β) : c.Settled c :=
  ⟨rfl, rfl, rfl, rfl, rfl, rfl, 0, rfl⟩

protected theorem trans (h₁ : c.Settled c₁) (h₂ : c₁.Settled c₂) : c.Settled c₂ := by
  obtain ⟨n, hn⟩ := h₁.strategy
  obtain ⟨k, hk⟩ := h₂.strategy
  exact ⟨h₂.stage.trans h₁.stage, h₂.request.trans h₁.request, h₂.store.trans h₁.store,
    h₂.shelf.trans h₁.shelf, h₂.trained.trans h₁.trained, h₂.saved.trans h₁.saved, k + n,
    by rw [hk, hn, Function.iterate_add_apply]⟩

end Settled

/-- `c'` keeps what `c` records, and its observer heard nothing since. -/
structure Silent (c c' : RunContext σ β) : Prop where
  settled : c.Settled c'
  observer : c'.observer = c.observer

namespace Silent

variable {c c₁ c₂ : RunContext σ β}

protected theorem refl (c : RunContext σ β) : Silent c c :=
  ⟨.refl c, rfl⟩

/-- A step that keeps the records and the observer. -/
theorem step (h : Silent c c₁) (hc : c₁.Settled c₂) (ho : c₂.observer = c₁.observer) :
    Silent c c₂ :=
  ⟨h.settled.trans hc, ho.trans h.observer⟩

end Silent

/-- `c'` keeps what `c` records, and its observer heard only events of the stage `s` since. -/
structure Hears (s : Stage) (c c' : RunContext σ β) : Prop where
  settled : c.Settled c'
  heard : Observer.Heard s c.observer c'.observer

namespace Hears

variable {s : Stage} {c c₁ c₂ : RunContext σ β}

protected theorem refl (s : Stage) (c : RunContext σ β) : Hears s c c :=
  ⟨.refl c, .refl s c.observer⟩

protected theorem trans (h₁ : Hears s c c₁) (h₂ : Hears s c₁ c₂) : Hears s c c₂ :=
  ⟨h₁.settled.trans h₂.settled, h₁.heard.trans h₂.heard⟩

/-- A step that keeps the records and the observer. -/
theorem of_settled (h : c.Settled c') (ho : c'.observer = c.observer) : Hears s c c' :=
  ⟨h, ho ▸ .refl s c.observer⟩

/-- A step that keeps the records and the observer. -/
theorem step (h : Hears s c c₁) (hc : c₁.Settled c₂) (ho : c₂.observer = c₁.observer) :
    Hears s c c₂ :=
  h.trans (of_settled hc ho)

/-- A step that heard nothing heard nothing off any stage. -/
theorem of_silent (h : Silent c c') : Hears s c c' :=
  of_settled h.settled h.observer

end Hears

end RunContext

/-! ## What a watch sees

Refinement and repair report through a watch whose state changes only by their notes, so every
property the notes keep holds of the watch they hand back, however the run ended. -/

namespace Refinement

/-- A property of the watch indexed by the generations done, which each noted generation carries
to the next, holds of the watch the run hands back. -/
theorem loop_watch_from {σ : Type} {I : ℕ → σ → Prop} (cfg : RefineConfig) (d : Domain)
    (note : σ → Nat → Int → Fitness → σ) (stopped : σ → Bool)
    (hnote : ∀ s (gen : ℕ) best, (gen : Int) < cfg.generations → I gen s →
      I (gen + 1) (note s (gen + 1) cfg.generations best)) :
    ∀ (fuel gen : Nat) (r : Refinement) (s : σ), I gen s →
      ∃ gen' s', (loop cfg d fuel gen r ⟨s, note, stopped⟩).2 = ⟨s', note, stopped⟩ ∧ I gen' s'
  | 0, gen, _, s, hs => ⟨gen, s, rfl, hs⟩
  | fuel + 1, gen, r, s, hs => by
    unfold loop
    split
    · exact ⟨gen, s, rfl, hs⟩
    rename_i hlt
    split
    · exact ⟨gen, s, rfl, hs⟩
    split
    split
    -- a generation is noted, then the run stops on a plateau or goes on
    split
    · exact ⟨_, _, rfl, hnote _ _ _ (by omega) hs⟩
    · exact loop_watch_from cfg d note stopped hnote fuel (gen + 1) _ _ (hnote _ _ _ (by omega) hs)

end Refinement

theorem Timetable.refine_watch_from {σ : Type} {I : ℕ → σ → Prop} (t : Timetable) (d : Domain)
    (cfg : RefineConfig) (w : RefineWatch σ)
    (hnote : ∀ s (gen : ℕ) best, (gen : Int) < cfg.generations → I gen s →
      I (gen + 1) (w.note s (gen + 1) cfg.generations best)) (hs : I 0 w.state) :
    ∃ gen s, (t.refine d cfg w).2 = { w with state := s } ∧ I gen s := by
  obtain ⟨s₀, note, stopped⟩ := w
  -- the settings in force keep the run's length
  obtain ⟨gen, s, hloop, hs⟩ := Refinement.loop_watch_from cfg.normalize d note stopped hnote
    cfg.normalize.generations.toNat 0 (Refinement.start cfg.normalize d t) s₀ hs
  refine ⟨gen, s, ?_, hs⟩
  unfold Timetable.refine
  dsimp only
  split <;> rename_i heq <;> rw [heq] at hloop <;> exact hloop

theorem Timetable.refine_watch {σ : Type} {I : σ → Prop} (t : Timetable) (d : Domain)
    (cfg : RefineConfig) (w : RefineWatch σ)
    (hnote : ∀ s gen total best, I s → I (w.note s gen total best)) (hs : I w.state) :
    ∃ s, (t.refine d cfg w).2 = { w with state := s } ∧ I s := by
  obtain ⟨-, s, hw, hs'⟩ := Timetable.refine_watch_from (I := fun _ ↦ I) t d cfg w
    (fun s gen best _ h ↦ hnote s (gen + 1) cfg.generations best h) hs
  exact ⟨s, hw, hs'⟩

namespace RepairState

/-- A property of the watch indexed by the iterations done, which each noted iteration carries to
the next, holds of the watch the run hands back. -/
theorem loop_watch_from {σ : Type} {I : ℕ → σ → Prop} (cfg : RepairConfig) (d : Domain)
    (note : σ → Nat → Int → Nat → σ) (stopped : σ → Bool)
    (hnote : ∀ x (it : ℕ) left, (it : Int) < cfg.iterations → I it x →
      I (it + 1) (note x (it + 1) cfg.iterations left)) :
    ∀ (fuel it : Nat) (s : RepairState) (x : σ), I it x →
      ∃ it' x', (loop cfg d fuel it s ⟨x, note, stopped⟩).2 = ⟨x', note, stopped⟩ ∧ I it' x'
  | 0, it, _, x, hx => ⟨it, x, rfl, hx⟩
  | fuel + 1, it, s, x, hx => by
    unfold loop
    split
    · exact ⟨it, x, rfl, hx⟩
    rename_i hlt
    have hlt : (it : Int) < cfg.iterations := by simp at hlt; omega
    split
    · exact ⟨it, x, rfl, hx⟩
    -- an iteration faults, or is noted and the run goes on
    split
    · exact ⟨it, x, rfl, hx⟩
    · exact loop_watch_from cfg d note stopped hnote fuel (it + 1) _ _ (hnote _ _ _ hlt hx)

end RepairState

theorem Timetable.repair_watch_from {σ : Type} {I : ℕ → σ → Prop} (t : Timetable) (d : Domain)
    (table : QTable) (cfg : RepairConfig) (w : RepairWatch σ)
    (hnote : ∀ x (it : ℕ) left, (it : Int) < cfg.iterations → I it x →
      I (it + 1) (w.note x (it + 1) cfg.iterations left)) (hx : I 0 w.state) :
    ∃ it x, (t.repair d table cfg w).2 = { w with state := x } ∧ I it x := by
  obtain ⟨x₀, note, stopped⟩ := w
  unfold Timetable.repair
  dsimp only
  split
  · exact ⟨0, x₀, rfl, hx⟩
  · obtain ⟨it, x, hloop, hx⟩ := RepairState.loop_watch_from cfg d note stopped hnote
      cfg.iterations.toNat 0 (RepairState.init t d table cfg) x₀ hx
    refine ⟨it, x, ?_, hx⟩
    split <;> rename_i heq <;> rw [heq] at hloop <;> exact hloop

theorem Timetable.repair_watch {σ : Type} {I : σ → Prop} (t : Timetable) (d : Domain)
    (table : QTable) (cfg : RepairConfig) (w : RepairWatch σ)
    (hnote : ∀ x it total left, I x → I (w.note x it total left)) (hx : I w.state) :
    ∃ x, (t.repair d table cfg w).2 = { w with state := x } ∧ I x := by
  obtain ⟨-, x, hw, hx'⟩ := Timetable.repair_watch_from (I := fun _ ↦ I) t d table cfg w
    (fun x it left _ h ↦ hnote x (it + 1) cfg.iterations left h) hx
  exact ⟨x, hw, hx'⟩

/-! ## The steps of a run, however they end -/

namespace RunStep

open RunContext

variable {σ β : Type}

theorem checkStop_silent (c₀ : RunContext σ β) :
    Triple (· = c₀) checkStop (fun _ ↦ Silent c₀) (fun _ ↦ Silent c₀) := by
  unfold checkStop
  refine Triple.get_bind fun c₁ hc₁ ↦ ?_
  subst hc₁
  exact Triple.ite_of (fun _ ↦ Triple.throw_of _ fun _ h ↦ h ▸ .refl _)
    fun _ ↦ Triple.pure_of _ fun _ h ↦ h ▸ .refl _

/-- The check before a stage changes only the memory figures and the strategy, which it may
degrade. -/
theorem boundary_silent (next : Stage) (c₀ : RunContext σ β) :
    Triple (· = c₀) (boundary next) (fun _ ↦ Silent c₀) (fun _ ↦ Silent c₀) := by
  unfold boundary
  refine Triple.bind (checkStop_silent c₀) fun _ ↦ Triple.get_bind fun c₁ hc₁ ↦ ?_
  dsimp only
  -- a sample, when there is a monitor, changes only the memory figures
  split
  on_goal 1 =>
    refine Triple.mono (P := Silent c₀) ?_ (fun _ h ↦ h ▸ hc₁) (fun _ _ h ↦ h) (fun _ _ h ↦ h)
  on_goal 2 =>
    refine Triple.bind (Triple.set_of (Q := fun _ ↦ Silent c₀) fun _ _ ↦
      hc₁.step ⟨rfl, rfl, rfl, rfl, rfl, rfl, 0, rfl⟩ rfl) fun _ ↦ ?_
  -- then critical pressure ends the run, and a first warning degrades the strategy
  all_goals
    refine Triple.get_bind fun c₂ hc₂ ↦ Triple.ite_of (fun _ ↦ ?_) fun _ ↦ ?_
    · exact Triple.bind (Q := fun _ _ ↦ False) (Triple.throw_of _ fun _ h ↦ h ▸ hc₂)
        fun _ _ h ↦ h.elim
    · exact Triple.ite_of (fun _ ↦ Triple.set_of fun _ _ ↦
        hc₂.step ⟨rfl, rfl, rfl, rfl, rfl, rfl, 1, rfl⟩ rfl) fun _ ↦ Triple.pure_of _ fun _ h ↦ h ▸ hc₂

theorem boundary_hears (s next : Stage) (c₀ : RunContext σ β) :
    Triple (· = c₀) (boundary next) (fun _ ↦ Hears s c₀) (fun _ ↦ Hears s c₀) :=
  (boundary_silent next c₀).mono (fun _ h ↦ h) (fun _ _ h ↦ .of_silent h) fun _ _ h ↦ .of_silent h

/-- Clustering records the clusters and their figures. -/
theorem clusterStage_silent (c₀ : RunContext σ β) :
    Triple (· = c₀) clusterStage (fun _ ↦ Silent c₀) (fun _ ↦ Silent c₀) := by
  unfold clusterStage
  refine Triple.get_bind fun c₁ hc₁ ↦ ?_
  subst hc₁
  dsimp only
  -- a catalog with courses is checked for a request to stop first
  split
  on_goal 1 => refine Triple.bind (checkStop_silent c₁) fun _ ↦ ?_
  on_goal 2 =>
    refine Triple.mono (P := Silent c₁) ?_ (fun _ h ↦ h ▸ .refl _) (fun _ _ h ↦ h) (fun _ _ h ↦ h)
  all_goals
    exact Triple.bind (Triple.set_of (Q := fun _ ↦ Silent c₁) fun _ _ ↦
      ⟨⟨rfl, rfl, rfl, rfl, rfl, rfl, 0, rfl⟩, rfl⟩) fun _ ↦ Triple.pure_of _ fun _ h ↦ h

theorem clusterStage_hears (s : Stage) (c₀ : RunContext σ β) :
    Triple (· = c₀) clusterStage (fun _ ↦ Hears s c₀) (fun _ ↦ Hears s c₀) :=
  (clusterStage_silent c₀).mono (fun _ h ↦ h) (fun _ _ h ↦ .of_silent h) fun _ _ h ↦ .of_silent h

theorem qtableSaved_foldl {α : Type} {f : RunStats → α → RunStats}
    (hf : ∀ s a, (f s a).qtableSaved = s.qtableSaved) (l : List α) (s : RunStats) :
    (l.foldl f s).qtableSaved = s.qtableSaved := by
  induction l generalizing s with
  | nil => rfl
  | cons a l ih => exact (ih (f s a)).trans (hf s a)

/-- Solving records the merged timetable and the solver's figures. -/
theorem solveStage_silent (c₀ : RunContext σ β) :
    Triple (· = c₀) solveStage (fun _ ↦ Silent c₀) (fun _ ↦ Silent c₀) := by
  unfold solveStage
  refine Triple.bind (checkStop_silent c₀) fun _ ↦ Triple.get_bind fun c₁ hc₁ ↦ ?_
  dsimp only
  -- counting exact clusters and fallbacks touches no other figure
  exact Triple.bind (Triple.set_of (Q := fun _ ↦ Silent c₀) fun _ _ ↦
    hc₁.step ⟨rfl, rfl, rfl, rfl, rfl, qtableSaved_foldl (fun _ _ ↦ by split <;> rfl) _ _, 0, rfl⟩
      rfl) fun _ ↦ Triple.pure_of _ fun _ h ↦ h

theorem solveStage_hears (s : Stage) (c₀ : RunContext σ β) :
    Triple (· = c₀) solveStage (fun _ ↦ Hears s c₀) (fun _ ↦ Hears s c₀) :=
  (solveStage_silent c₀).mono (fun _ h ↦ h) (fun _ _ h ↦ .of_silent h) fun _ _ h ↦ .of_silent h

/-- A refinement note reports refining progress, or nothing. -/
theorem refineNote_hears (every : Nat) (c : RunContext σ β) (gen : Nat) (total : Int)
    (best : Fitness) : Hears .refining c (refineNote every c gen total best) := by
  unfold refineNote
  split
  · exact .refl _ c
  · exact ⟨⟨rfl, rfl, rfl, rfl, rfl, rfl, 0, rfl⟩, Observer.Heard.deliver (.refl _ _) rfl⟩

/-- A repair note reports repairing progress, or nothing. -/
theorem repairNote_hears (every : Nat) (c : RunContext σ β) (it : Nat) (total : Int)
    (remaining : Nat) : Hears .repairing c (repairNote every c it total remaining) := by
  unfold repairNote
  split
  · exact .refl _ c
  · exact ⟨⟨rfl, rfl, rfl, rfl, rfl, rfl, 0, rfl⟩, Observer.Heard.deliver (.refl _ _) rfl⟩

theorem repairNote_stats (every : Nat) (c : RunContext σ β) (it : Nat) (total : Int)
    (remaining : Nat) : (repairNote every c it total remaining).stats = c.stats := by
  unfold repairNote
  split <;> rfl

/-- Refinement reports refining progress and records the timetable it leaves. -/
theorem refineStage_hears (c₀ : RunContext σ β) :
    Triple (· = c₀) refineStage (fun _ ↦ Hears .refining c₀) (fun _ ↦ Hears .refining c₀) := by
  unfold refineStage
  refine Triple.get_bind fun c₁ hc₁ ↦ ?_
  subst hc₁
  dsimp only
  refine Triple.ite_of (fun _ ↦ Triple.pure_of _ fun _ h ↦ h ▸ .refl _ _) fun _ ↦ ?_
  generalize RefineConfig.mk _ _ _ _ _ _ _ = cfg
  -- the watch hands back a context that heard only the notes
  obtain ⟨c₂, hw, hc₂⟩ := Timetable.refine_watch (I := Hears .refining c₁)
    (c₁.timetable.getD (Timetable.empty c₁.catalog)) c₁.domain cfg
    ⟨c₁, refineNote c₁.config.every, fun c ↦ c.observer.halted⟩
    (fun c gen total best h ↦ h.trans (refineNote_hears _ c gen total best)) (.refl _ c₁)
  split <;> rename_i heq <;> rw [heq] at hw <;> cases hw
  · exact Triple.bind (Triple.set_of (Q := fun _ ↦ Hears .refining c₁) fun _ _ ↦ hc₂)
      fun _ ↦ Triple.throw_of _ fun _ h ↦ h
  · exact Triple.bind (Triple.set_of (Q := fun _ ↦ Hears .refining c₁) fun _ _ ↦
      hc₂.step ⟨rfl, rfl, rfl, rfl, rfl, rfl, 0, rfl⟩ rfl) fun _ ↦ Triple.pure_of _ fun _ h ↦ h

/-- What repair leaves of the records of `c`: the stage, the request and the shelf, the store as
loading the scope's table left it, and an observer that heard only repairing progress. -/
structure Repaired (c c' : RunContext σ β) : Prop where
  stage : c'.stage = c.stage
  request : c'.request = c.request
  shelf : c'.shelf = c.shelf
  store : c'.store = (c.shelf.load c.store c.request.scope).2
  heard : Observer.Heard .repairing c.observer c'.observer

/-- The table repair starts from: the scope's table as loaded, or an empty one when loading
failed. -/
def loadedTable (c : RunContext σ β) : QTable :=
  (c.shelf.load c.store c.request.scope).1.toOption.getD {}

/-- Repair trains the loaded table; a run that returns a result records its figures, and keeps
the trained table for saving exactly when it counted an update. A run that ends early keeps the
trained table and the repair figures it had. -/
theorem repairStage_repaired (c₀ : RunContext σ β) :
    Triple (· = c₀) repairStage
      (fun _ c ↦ Repaired c₀ c ∧ c.stats.qtableSaved = c₀.stats.qtableSaved ∧
        ∃ table stats, c.stats.repair = some stats ∧
          c.trained = (if stats.updates > 0 then some table else none) ∧
          table.version = (loadedTable c₀).version ∧
          table.updates = (loadedTable c₀).updates + stats.updates)
      (fun _ c ↦ Repaired c₀ c) := by
  unfold repairStage
  refine Triple.get_bind fun c₁ hc₁ ↦ ?_
  subst hc₁
  generalize hload : c₁.shelf.load c₁.store c₁.request.scope = loaded
  obtain ⟨result, store⟩ := loaded
  dsimp only
  refine Triple.bind (Triple.set_of (Q := fun _ _ ↦ True) fun _ _ ↦ trivial) fun _ ↦ ?_
  generalize RepairConfig.mk _ _ _ _ _ _ _ = cfg
  -- the watch hands back the context after loading, with only repair notes heard since
  let c₂ : RunContext σ β := { c₁ with store, stats := { c₁.stats with
    qtableVersion := (result.toOption.getD {}).version } }
  have hc₂ : Repaired c₁ c₂ := ⟨rfl, rfl, rfl, by rw [hload], .refl _ _⟩
  obtain ⟨c₃, hw, hc₃, hstats⟩ := Timetable.repair_watch
    (I := fun c ↦ Hears .repairing c₂ c ∧ c.stats = c₂.stats)
    (c₁.timetable.getD (Timetable.empty c₁.catalog)) c₁.domain (result.toOption.getD {}) cfg
    ⟨c₂, repairNote c₁.config.every, fun c ↦ c.observer.halted⟩
    (fun c it total left h ↦ ⟨h.1.trans (repairNote_hears _ c it total left),
      (repairNote_stats _ c it total left).trans h.2⟩) ⟨.refl _ c₂, rfl⟩
  have hrep : Repaired c₁ c₃ :=
    ⟨hc₃.settled.stage.trans hc₂.stage, hc₃.settled.request.trans hc₂.request,
      hc₃.settled.shelf.trans hc₂.shelf, hc₃.settled.store.trans hc₂.store,
      hc₂.heard.trans hc₃.heard⟩
  have hloaded : loadedTable c₁ = result.toOption.getD {} := by rw [loadedTable, hload]
  split <;> rename_i heq <;> rw [heq] at hw <;> cases hw
  · exact Triple.bind (Triple.set_of (Q := fun _ ↦ Repaired c₁) fun _ _ ↦ hrep)
      fun _ ↦ Triple.throw_of _ fun _ h ↦ h
  · exact Triple.bind (Triple.set_of (Q := fun _ ↦ Repaired c₁) fun _ _ ↦ hrep)
      fun _ ↦ Triple.throw_of _ fun _ h ↦ h
  · rename_i t table stats
    obtain ⟨hv, hu⟩ := Timetable.repair_table heq
    refine Triple.bind (Triple.set_of fun _ _ ↦
      ⟨⟨hrep.stage, hrep.request, hrep.shelf, hrep.store, hrep.heard⟩, ?_, table, stats, rfl, rfl, ?_, ?_⟩)
      fun _ ↦ Triple.pure_of _ fun _ h ↦ h
    · show c₃.stats.qtableSaved = c₂.stats.qtableSaved
      rw [hstats]
    · rw [hloaded, hv]
    · rw [hloaded, hu]

/-! ## Moves between stages, and the frame of a stage -/

/-- Reporting an event changes only the observer, which receives it. -/
theorem publish_run (stage : Stage) (fraction : Float) (step : String)
    (detail : Option (List (String × DetailValue))) (c : RunContext σ β) :
    (publish stage fraction step detail : RunStep σ β Unit).run.run c =
      let e : ProgressEvent :=
        { jobId := c.request.jobId, stage, percent := stage.percentWithin fraction, step, detail }
      (.ok (), { c with observer := c.observer.deliver e }) :=
  rfl

/-- A move to the current stage, or to one the stage order allows, is made and reported; any other
is dropped unreported. -/
theorem transition_run (target : Stage) (fraction : Float) (step : String)
    (detail : Option (List (String × DetailValue))) (c : RunContext σ β) :
    (transition target fraction step detail : RunStep σ β Unit).run.run c =
      let e : ProgressEvent :=
        { jobId := c.request.jobId, stage := target, percent := target.percentWithin fraction,
          step, detail }
      if target = c.stage ∨ c.stage.canMove target = true then
        (.ok (), { c with stage := target, observer := c.observer.deliver e })
      else (.ok (), c) := by
  -- the stage is read from the context the step starts in
  show (if target != c.stage then _ else _ : RunStep σ β Unit).run.run c = _
  by_cases hs : target = c.stage
  · subst hs
    simp
    rfl
  · by_cases hm : c.stage.canMove target = true
    · simp [hs, hm]
      rfl
    · simp [hs, hm]
      rfl

/-- `c'` is `c` at some stage, with an observer that may have heard more. -/
def Moved (c c' : RunContext σ β) : Prop :=
  ∃ (stage : Stage) (o : Observer σ), c' = { c with stage, observer := o }

theorem transition_moved (target : Stage) (fraction : Float) (step : String)
    (detail : Option (List (String × DetailValue))) (c : RunContext σ β) :
    Moved c ((transition target fraction step detail : RunStep σ β Unit).run.run c).2 := by
  rw [transition_run]
  split
  · exact ⟨target, _, rfl⟩
  · exact ⟨c.stage, c.observer, rfl⟩

/-- A move between stages keeps every property that moves keep. -/
theorem transition_keeps {P : RunContext σ β → Prop} {R : StageFault → RunContext σ β → Prop}
    (hP : ∀ c c', P c → Moved c c' → P c') (target : Stage) (fraction : Float) (step : String)
    (detail : Option (List (String × DetailValue))) :
    Triple P (transition target fraction step detail) (fun _ ↦ P) R := by
  intro c hc
  rw [transition_run]
  split
  · exact hP c _ hc ⟨target, _, rfl⟩
  · exact hc

/-- Reporting an event keeps every property that moves keep. -/
theorem publish_keeps {P : RunContext σ β → Prop} {R : StageFault → RunContext σ β → Prop}
    (hP : ∀ c c', P c → Moved c c' → P c') (stage : Stage) (fraction : Float) (step : String)
    (detail : Option (List (String × DetailValue))) :
    Triple P (publish stage fraction step detail) (fun _ ↦ P) R :=
  fun c hc ↦ hP c _ hc ⟨c.stage, _, rfl⟩

/-- Describing how a run stopped moves it, at most, to a terminal stage. -/
theorem fail_moved (f : StageFault) (c : RunContext σ β) : Moved c ((fail f).run c).2 := by
  unfold fail
  -- a fault inside a stage is reported as it is; any other stop moves to a terminal stage
  cases f
  case fault => exact ⟨c.stage, c.observer, rfl⟩
  all_goals exact transition_moved _ 0 _ _ c

/-- A stage, from its parts: its start, its body, a validation that may stop it where the body left
it, its commit, and its report, which only adds to the stage reports of the statistics. -/
theorem execute_triple {P P₁ P₂ P₃ : RunContext σ β → Prop} {Q : PUnit → RunContext σ β → Prop}
    {R : StageFault → RunContext σ β → Prop} (stage : Stage) (exclusive validate commit : Bool)
    {body : RunStep σ β (List (String × Int))}
    (hstart : Triple P (transition stage 0 "started" none) (fun _ ↦ P₁) R)
    (hbody : Triple P₁ body (fun _ ↦ P₂) R)
    (hinvalid : ∀ c m, P₂ c → R (.invariant m) c)
    (hcommit : Triple P₂ (if commit then commitTable else pure ()) (fun _ ↦ P₃) R)
    (hreport : ∀ c (r : StageReport), P₃ c →
      Q () { c with stats := { c.stats with stages := c.stats.stages ++ [r] } }) :
    Triple P (execute stage exclusive validate commit body) Q R := by
  unfold execute
  refine Triple.bind hstart fun _ ↦ Triple.bind hbody fun _ ↦ Triple.get_bind fun c₀ hc₀ ↦ ?_
  dsimp only
  -- validation stops the stage where the body left it, or hands on to the commit and the report
  have hcommitted : commit = true → Triple (· = c₀) commitTable (fun _ ↦ P₃) R := fun hc ↦ by
    rw [if_pos hc] at hcommit
    exact hcommit.mono (fun _ h ↦ h ▸ hc₀) (fun _ _ h ↦ h) fun _ _ h ↦ h
  have hskipped : commit = false → P₃ c₀ := fun hc ↦ by
    rw [if_neg (by simp [hc])] at hcommit
    exact hcommit c₀ hc₀
  split
  on_goal 1 =>
    split
    on_goal 1 =>
      split
      on_goal 1 =>
        exact Triple.bind (Q := fun _ _ ↦ False) (Triple.throw_of _ fun _ h ↦ h ▸ hinvalid _ _ hc₀)
          fun _ _ h ↦ h.elim
  all_goals
    refine Triple.ite_of (fun hc ↦ Triple.bind (hcommitted hc) fun _ ↦ ?_) fun hc ↦ ?_
    · exact Triple.get_bind fun c₁ hc₁ ↦ Triple.set_of fun _ h ↦ hreport _ _ (h ▸ hc₁)
    · exact Triple.get_bind fun c₁ hc₁ ↦ Triple.set_of fun _ _ ↦
        hreport _ _ (hc₁ ▸ hskipped (by simpa using hc))

end RunStep

end Timetabling
