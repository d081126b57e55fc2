import Mathlib
import Timetabling.Proofs.Pipeline.Pace

/-!
# The stage protocol of a run

A run moves through the forward stages in order (initializing, clustering, solving, refining,
repairing, finalizing, completed) and may leave any stage short of the end for failure or
cancellation; every move is published to the run's observer as a progress event, and so are the
reports each stage makes while it works. This module proves that whatever the memory monitor
samples and wherever the observer asks the run to stop, the events the observer hears fit the
outcome the run returns (`FollowsProtocol`), and on a completed run their percentages never
decrease.

The events of one stage repeat, so the statements collapse repeats (`List.destutter`) before
comparing the stages heard with a stage's `Stage.path`. The invariant carried through the run is
`RunStep.OnTrack`: the run is short of the end, the collapse of what its observer has heard so
far is the path to the stage it is at, and the percentages heard rise up to a bound, the start
or the end of the current stage, as long as the counts of the strategy fit. Each stage keeps it,
from the end of the stage before to its own end (`RunStep.stage_onTrack`); a stop adds the one
terminal event (`RunStep.fail_follows`); completion adds the last event at 100 percent
(`RunStep.OnTrack.transition_completed`).

A run that faults inside a stage (an index out of range in the repair) leaves with no terminal
event: its observer heard a path of stages and nothing else, and the run reports neither
completion nor a failure of the pipeline.
-/

namespace List

variable {α : Type} [DecidableEq α]

/-- Collapsing repeats of a list with one more element at its end: the element is dropped when
the collapse already ends with it, and kept otherwise. -/
theorem destutter'_ne_append_singleton (l : List α) (a b : α) :
    (l ++ [b]).destutter' (· ≠ ·) a =
      if (l.destutter' (· ≠ ·) a).getLast? = some b then l.destutter' (· ≠ ·) a
      else l.destutter' (· ≠ ·) a ++ [b] := by
  induction l generalizing a with
  | nil =>
    by_cases h : a = b
    · simp [h]
    · simp [h]
  | cons c l ih =>
    simp only [cons_append, destutter'_cons]
    by_cases h : a = c
    · subst h
      simp only [ne_eq, not_true_eq_false, if_false]
      exact ih a
    · -- the collapse keeps `a` in front of a non-empty collapse of the rest
      have hne : l.destutter' (· ≠ ·) c ≠ [] := destutter'_ne_nil l _
      simp only [ne_eq, h, not_false_eq_true, if_true, ih c]
      cases hd : l.destutter' (· ≠ ·) c with
      | nil => exact absurd hd hne
      | cons x xs =>
        rw [getLast?_cons_cons]
        split <;> rfl

theorem destutter_ne_append_singleton (l : List α) (b : α) :
    (l ++ [b]).destutter (· ≠ ·) =
      if (l.destutter (· ≠ ·)).getLast? = some b then l.destutter (· ≠ ·)
      else l.destutter (· ≠ ·) ++ [b] := by
  cases l with
  | nil => simp
  | cons a l => exact destutter'_ne_append_singleton l a b

/-- Copies of the element a collapse ends with leave the collapse as it is. -/
theorem destutter_ne_append_of_forall_eq {b : α} :
    ∀ {l : List α} (m : List α), (l.destutter (· ≠ ·)).getLast? = some b → (∀ x ∈ m, x = b) →
      (l ++ m).destutter (· ≠ ·) = l.destutter (· ≠ ·)
  | l, [], _, _ => by rw [append_nil]
  | l, x :: m, hl, hm => by
    have hx : x = b := hm x mem_cons_self
    have hstep : (l ++ [x]).destutter (· ≠ ·) = l.destutter (· ≠ ·) := by
      rw [destutter_ne_append_singleton, hx, if_pos hl]
    rw [← singleton_append, ← append_assoc, destutter_ne_append_of_forall_eq m (hstep ▸ hl)
      fun y hy ↦ hm y (mem_cons_of_mem x hy), hstep]

end List

namespace Timetabling

namespace Stage

/-- The stages a run enters on its way to `s`, in order: the forward stages up to `s`. A failure
or a cancellation is off the forward order and has none. -/
def path : Stage → List Stage
  | .initializing => [.initializing]
  | .clustering => [.initializing, .clustering]
  | .solving => [.initializing, .clustering, .solving]
  | .refining => [.initializing, .clustering, .solving, .refining]
  | .repairing => [.initializing, .clustering, .solving, .refining, .repairing]
  | .finalizing => [.initializing, .clustering, .solving, .refining, .repairing, .finalizing]
  | .completed =>
    [.initializing, .clustering, .solving, .refining, .repairing, .finalizing, .completed]
  | .failed | .cancelled => []

/-- A stage that follows another on success extends its path by itself. -/
theorem path_next {s s' : Stage} (h : s.next? = some s') : s'.path = s.path ++ [s'] := by
  cases s <;> simp [next?] at h <;> subst h <;> rfl

/-- No stage follows itself. -/
theorem ne_of_next {s s' : Stage} (h : s.next? = some s') : s ≠ s' := by
  cases s <;> simp [next?] at h <;> subst h <;> decide

/-- The path to a stage short of the end ends with that stage. -/
theorem getLast?_path {s : Stage} (h : s.terminal = false) : s.path.getLast? = some s := by
  cases s <;> simp_all [terminal, path]

/-- A run may always move to the stage that follows. -/
theorem canMove_of_next {s s' : Stage} (h : s.next? = some s') : s.canMove s' = true := by
  cases s <;> simp [next?] at h <;> subst h <;> rfl

/-- A run short of the end may always fail or be cancelled. -/
theorem canMove_stop {s : Stage} (h : s.terminal = false) (t : Stage)
    (ht : t = .failed ∨ t = .cancelled) : s.canMove t = true := by
  rcases ht with rfl | rfl <;> simp [canMove, h]

/-- Along a path, each stage may move to the next. -/
theorem isChain_path (s : Stage) : s.path.IsChain (fun a b ↦ a.canMove b = true) := by
  cases s <;> decide

/-- A path short of the end followed by a failure or a cancellation: each stage may move to the
next. -/
theorem isChain_path_stop {s : Stage} (h : s.terminal = false) (t : Stage)
    (ht : t = .failed ∨ t = .cancelled) :
    (s.path ++ [t]).IsChain (fun a b ↦ a.canMove b = true) := by
  rcases ht with rfl | rfl <;> cases s <;> simp_all [terminal] <;> decide

/-- A completed run reports 100 percent. -/
theorem percentWithin_completed : Stage.completed.percentWithin 1 = 100 := by decide

end Stage

/-- How the events a run of the strategy `strategy` published fit its outcome. A completed run
published events of the forward stages up to finalizing, entered in order, then one event of
completion at 100 percent, and when the counts of its strategy fit (`StrategyConfig.CountsFit`)
the percentages of its events never decrease. A stopped run published events of the forward
stages up to the stage it stopped after, then one event of failure, or of cancellation when it
was cancelled. A run that faulted inside a stage published events of the forward stages up to
some stage, and nothing terminal. A refused run published nothing. -/
def FollowsProtocol (strategy : StrategyConfig) (evs : List ProgressEvent) :
    Except RunFailure RunResult → Prop
  | .ok _ => ∃ pre last, evs = pre ++ [last] ∧ (∀ e ∈ pre, e.stage.terminal = false) ∧
      (pre.map (·.stage)).destutter (· ≠ ·) = Stage.finalizing.path ∧
      last.stage = .completed ∧ last.percent = 100 ∧
      (strategy.CountsFit → (evs.map (·.percent)).IsChain (· ≤ ·))
  | .error (.stopped kind lastStage _ _) => ∃ pre last, evs = pre ++ [last] ∧
      (∀ e ∈ pre, e.stage.terminal = false) ∧ lastStage.terminal = false ∧
      (pre.map (·.stage)).destutter (· ≠ ·) = lastStage.path ∧
      last.stage = if kind = .cancelled then .cancelled else .failed
  | .error (.fault _) => (∀ e ∈ evs, e.stage.terminal = false) ∧
      ∃ s : Stage, s.terminal = false ∧ (evs.map (·.stage)).destutter (· ≠ ·) = s.path
  | .error (.refused _) => evs = []

namespace FollowsProtocol

variable {strategy : StrategyConfig} {evs : List ProgressEvent} {result : Except RunFailure RunResult}

/-- The stages of the events, repeats collapsed: a path, followed by one failure or cancellation
only for a stopped run. -/
theorem isChain (h : FollowsProtocol strategy evs result) :
    ((evs.map (·.stage)).destutter (· ≠ ·)).IsChain (fun a b ↦ a.canMove b = true) := by
  match result, h with
  | .ok _, ⟨pre, last, hevs, _, hwalk, hlast, _, _⟩ =>
    have hpath : Stage.completed.path = Stage.finalizing.path ++ [.completed] := Stage.path_next rfl
    rw [hevs, List.map_append, List.map_singleton, List.destutter_ne_append_singleton, hwalk,
      hlast, Stage.getLast?_path rfl, if_neg (by decide), ← hpath]
    exact Stage.isChain_path _
  | .error (.stopped kind s _ _), ⟨pre, last, hevs, _, hlive, hwalk, hlast⟩ =>
    have ht : last.stage = .failed ∨ last.stage = .cancelled := by
      rw [hlast]
      split <;> simp
    -- the stop event is terminal and the stage it leaves is not, so it is not collapsed
    have hne : s ≠ last.stage := by
      rintro rfl
      rcases ht with ht | ht <;> rw [ht] at hlive <;> simp [Stage.terminal] at hlive
    rw [hevs, List.map_append, List.map_singleton, List.destutter_ne_append_singleton, hwalk,
      Stage.getLast?_path hlive, if_neg (fun heq ↦ hne (Option.some.inj heq))]
    exact Stage.isChain_path_stop hlive _ ht
  | .error (.fault _), ⟨_, s, _, hwalk⟩ =>
    rw [hwalk]
    exact Stage.isChain_path s
  | .error (.refused _), h =>
    rw [h]
    exact List.IsChain.nil

/-- A run completes exactly when its last event is completion. -/
theorem ok_iff (h : FollowsProtocol strategy evs result) :
    (∃ r, result = .ok r) ↔ evs.getLast?.map (·.stage) = some .completed := by
  match result, h with
  | .ok r, ⟨pre, last, hevs, _, _, hlast, _, _⟩ =>
    simp [hevs, hlast]
  | .error (.stopped kind _ _ _), ⟨pre, last, hevs, _, _, _, hlast⟩ =>
    have hstop : last.stage ≠ .completed := by
      rw [hlast]
      split <;> decide
    simp [hevs, hstop]
  | .error (.fault _), ⟨hlive, _⟩ =>
    -- no event of a faulted run is terminal, and completion is
    have hstop : ∀ e ∈ evs.getLast?, e.stage ≠ .completed := fun e he heq ↦ by
      simpa [heq, Stage.terminal] using hlive e (List.mem_of_getLast? he)
    simpa using hstop
  | .error (.refused _), (h : evs = []) =>
    simp [h]

end FollowsProtocol

namespace RunStep

open RunContext

variable {σ β : Type} {o₀ : Observer σ} {s₀ : StrategyConfig} {b : Float} {c c' : RunContext σ β}

/-- The run is at a stage short of the end, its counts fit when those of `s₀` did, and since `o₀`
its observer heard events off the terminal stages whose stages, repeats collapsed, are the forward
stages up to the current one, and whose percentages, when the counts of `s₀` fit, rise up to
`b`. -/
structure OnTrack (o₀ : Observer σ) (s₀ : StrategyConfig) (b : Float) (c : RunContext σ β) :
    Prop where
  live : c.stage.terminal = false
  fits : s₀.CountsFit → c.strategy.CountsFit
  heard : ∃ evs : List ProgressEvent, c.observer = o₀.hear evs ∧
    (∀ e ∈ evs, e.stage.terminal = false) ∧ (evs.map (·.stage)).destutter (· ≠ ·) = c.stage.path ∧
    (s₀.CountsFit → Rising evs b)

namespace OnTrack

theorem congr (h : OnTrack o₀ s₀ b c) (hs : c'.stage = c.stage) (hf : c'.strategy = c.strategy)
    (ho : c'.observer = c.observer) : OnTrack o₀ s₀ b c' :=
  ⟨hs ▸ h.live, hf ▸ h.fits, by rw [hs, ho]; exact h.heard⟩

/-- A step that reports nothing keeps the run on track. -/
theorem silent (h : OnTrack o₀ s₀ b c) (hc : Silent c c') : OnTrack o₀ s₀ b c' :=
  ⟨hc.settled.stage ▸ h.live, fun hfit ↦ hc.settled.countsFit (h.fits hfit),
    by rw [hc.settled.stage, hc.observer]; exact h.heard⟩

/-- The work of the current stage, begun at the stage's start, keeps the run on track up to the
stage's end. -/
theorem paces {s : Stage} (h : OnTrack o₀ s₀ s.startPercent c) (hs : c.stage = s)
    (hp : Paces s c c') : OnTrack o₀ s₀ s.endPercent c' := by
  obtain ⟨evs, hobs, hlive, hwalk, hrise⟩ := h.heard
  obtain ⟨more, hmore, hobs', hrise'⟩ := hp.heard
  refine ⟨hp.stage ▸ h.live, fun hfit ↦ hp.fits (h.fits hfit), evs ++ more,
    by rw [hobs', hobs, Observer.hear_append], ?_, ?_,
    fun hfit ↦ hrise' (h.fits hfit) evs (hrise hfit)⟩
  · intro e he
    rcases List.mem_append.mp he with he | he
    · exact hlive e he
    · rw [hmore e he, ← hs]
      exact h.live
  · -- the new events repeat the stage the collapse already ends with
    rw [List.map_append, List.destutter_ne_append_of_forall_eq _
      (by rw [hwalk]; exact Stage.getLast?_path h.live) (by simpa [hs] using hmore), hwalk, hp.stage]

/-- A move to the stage that follows, from the end of the stage left, keeps the run on track at
the start of the stage entered. -/
theorem transition_next {p s : Stage} (hp : p.next? = some s) (hs : s.terminal = false)
    (step : String) (detail : Option (List (String × DetailValue)))
    {R : StageFault → RunContext σ β → Prop} :
    Triple (fun c ↦ OnTrack o₀ s₀ p.endPercent c ∧ c.stage = p) (transition s 0 step detail)
      (fun _ c ↦ OnTrack o₀ s₀ s.startPercent c ∧ c.stage = s) R := by
  rintro c ⟨h, rfl⟩
  obtain ⟨evs, hobs, hlive, hwalk, hrise⟩ := h.heard
  rw [transition_run, if_pos (.inr (Stage.canMove_of_next hp))]
  refine ⟨⟨hs, h.fits, evs ++ [_], by rw [hobs, Observer.hear_append, Observer.hear_singleton], ?_,
    ?_, fun hfit ↦ ?_⟩, rfl⟩
  · intro e he
    rcases List.mem_append.mp he with he | he
    · exact hlive e he
    · rw [List.mem_singleton.mp he]
      exact hs
  · -- the collapse ends with the stage left, which differs from the stage entered
    dsimp only
    rw [List.map_append, List.map_singleton, List.destutter_ne_append_singleton, hwalk,
      Stage.getLast?_path h.live, if_neg (by simpa using Stage.ne_of_next hp), ← Stage.path_next hp]
  · -- the stage entered starts where the stage left ends
    exact (hrise hfit).snoc (Stage.endPercent_le_startPercent hp) s.startPercent_le_self

/-- A move to a failure or a cancellation is made and reported after the events so far. -/
theorem transition_stop (h : OnTrack o₀ s₀ b c) {t : Stage} (ht : t = .failed ∨ t = .cancelled)
    (fraction : Float) (step : String) (detail : Option (List (String × DetailValue))) :
    ∃ evs last, ((transition t fraction step detail : RunStep σ β Unit).run.run c).2.observer =
        o₀.hear (evs ++ [last]) ∧ (∀ e ∈ evs, e.stage.terminal = false) ∧
      (evs.map (·.stage)).destutter (· ≠ ·) = c.stage.path ∧ last.stage = t := by
  obtain ⟨evs, hobs, hlive, hwalk, -⟩ := h.heard
  rw [transition_run, if_pos (.inr (Stage.canMove_stop h.live t ht))]
  exact ⟨evs, _, by rw [hobs, Observer.hear_append, Observer.hear_singleton], hlive, hwalk, rfl⟩

end OnTrack

/-- Saving the trained table keeps the stage, the strategy and the observer. -/
theorem commitTable_track {R : StageFault → RunContext σ β → Prop} (c₀ : RunContext σ β) :
    Triple (· = c₀) commitTable (fun _ c ↦ c.stage = c₀.stage ∧ c.strategy = c₀.strategy ∧
      c.observer = c₀.observer) R := by
  unfold commitTable
  refine Triple.get_bind fun c₁ hc₁ ↦ ?_
  subst hc₁
  split
  · exact Triple.pure_of () fun _ h ↦ h ▸ ⟨rfl, rfl, rfl⟩
  · refine Triple.bind (Triple.set_of (Q := fun _ _ ↦ True) fun _ _ ↦ trivial) fun _ ↦ ?_
    split <;> exact Triple.set_of fun _ _ ↦ ⟨rfl, rfl, rfl⟩

/-- A step that reports nothing paces every stage. -/
theorem silent_body_paces {α : Type} {s : Stage} {body : RunStep σ β α}
    (hb : ∀ c₀, Triple (· = c₀) body (fun _ ↦ Silent c₀) (fun _ ↦ Silent c₀)) (c₀ : RunContext σ β) :
    Triple (· = c₀) body (fun _ ↦ Paces s c₀) (fun _ ↦ Paces s c₀) :=
  (hb c₀).mono (fun _ h ↦ h) (fun _ _ h ↦ paces_of_silent h) fun _ _ h ↦ paces_of_silent h

/-- A stage with the check before it, entered from the end of the stage before it: a run on track
moves to the stage and stays on track there, up to the stage's end, and a stop leaves it on track.
The body keeps the stage and paces it. -/
theorem stage_onTrack {p s : Stage} (hp : p.next? = some s) (hs : s.terminal = false)
    (exclusive validate commit : Bool) {body : RunStep σ β (List (String × Int))}
    (hbody : ∀ c₀, Triple (· = c₀) body (fun _ ↦ Paces s c₀) (fun _ ↦ Paces s c₀)) :
    Triple (fun c ↦ OnTrack o₀ s₀ p.endPercent c ∧ c.stage = p)
      (boundary s *> execute s exclusive validate commit body)
      (fun _ c ↦ OnTrack o₀ s₀ s.endPercent c ∧ c.stage = s) (fun _ c ↦ ∃ b, OnTrack o₀ s₀ b c) := by
  -- the check before the stage keeps the stage and reports nothing
  have hboundary := Triple.lift
    (I := fun c : RunContext σ β ↦ OnTrack o₀ s₀ p.endPercent c ∧ c.stage = p)
    (fun _ _ h hc ↦ ⟨h.1.silent hc, hc.settled.stage.trans h.2⟩) (boundary_silent s)
  -- the work takes the events heard from the stage's start to its end
  have hwork : Triple (fun c ↦ OnTrack o₀ s₀ s.startPercent c ∧ c.stage = s) body
      (fun _ c ↦ OnTrack o₀ s₀ s.endPercent c ∧ c.stage = s) (fun _ c ↦ ∃ b, OnTrack o₀ s₀ b c) :=
    fun c₀ h ↦ (hbody c₀).mono (fun _ h ↦ h) (fun _ _ hc ↦ ⟨h.1.paces h.2 hc, hc.stage.trans h.2⟩)
      (fun _ _ hc ↦ ⟨_, h.1.paces h.2 hc⟩) c₀ rfl
  -- the commit, when the stage has one, keeps the stage, the strategy and the observer
  have hcommit : Triple (fun c : RunContext σ β ↦ OnTrack o₀ s₀ s.endPercent c ∧ c.stage = s)
      (if commit then commitTable else pure ()) (fun _ c ↦ OnTrack o₀ s₀ s.endPercent c ∧ c.stage = s)
      (fun _ c ↦ ∃ b, OnTrack o₀ s₀ b c) := by
    cases commit
    · exact Triple.pure_of () fun _ h ↦ h
    · rw [if_pos rfl]
      refine (Triple.lift ?_ fun c₀ ↦ commitTable_track c₀).mono (fun _ h ↦ h) (fun _ _ h ↦ h)
        fun _ _ h ↦ ⟨_, h.1⟩
      exact fun _ _ h hc ↦ ⟨h.1.congr hc.1 hc.2.1 hc.2.2, hc.1.trans h.2⟩
  refine Triple.seqRight (hboundary.mono (fun _ h ↦ h) (fun _ _ h ↦ h) fun _ _ h ↦ ⟨_, h.1⟩)
    fun _ ↦ ?_
  exact execute_triple s exclusive validate commit (OnTrack.transition_next hp hs "started" none)
    hwork (fun _ _ h ↦ ⟨_, h.1⟩) hcommit fun _ _ h ↦ ⟨h.1.congr rfl rfl rfl, h.2⟩

/-- The last move of a completed run, from the start of finalizing, reports completion at 100
percent, past every percentage heard before it. -/
theorem OnTrack.transition_completed (h : OnTrack o₀ s₀ Stage.finalizing.startPercent c)
    (hc : c.stage = .finalizing) (step : String) (detail : Option (List (String × DetailValue)))
    {R : StageFault → RunContext σ β → Prop} :
    Triple (· = c) (transition .completed 1 step detail)
      (fun _ c' ↦ ∃ evs, c'.observer = o₀.hear evs ∧ ∀ r, FollowsProtocol s₀ evs (.ok r)) R := by
  rintro _ rfl
  obtain ⟨evs, hobs, hlive, hwalk, hrise⟩ := h.heard
  rw [transition_run, if_pos (.inr (Stage.canMove_of_next (by rw [hc]; rfl)))]
  have hpast : Stage.finalizing.startPercent ≤ Stage.completed.endPercent :=
    Float.le_trans (Stage.startPercent_le_endPercent _)
      (Float.le_trans (Stage.endPercent_le_startPercent rfl) (Stage.startPercent_le_endPercent _))
  refine ⟨evs ++ [_], by rw [hobs, Observer.hear_append, Observer.hear_singleton], fun _ ↦
    ⟨evs, _, rfl, hlive, hc ▸ hwalk, rfl, Stage.percentWithin_completed, fun hfit ↦ ?_⟩⟩
  exact (hrise hfit).isChain_snoc hpast

/-- The steps of a run of the strategy `strategy`: it announces the strategy at the stage it
starts in, passes each stage in order, and completes; a stop leaves it on track. -/
theorem main_protocol (e : Catalog) (strategy : StrategyConfig) :
    Triple (fun c ↦ c.observer = o₀ ∧ c.stage = .initializing ∧ c.strategy = strategy)
      (main e strategy : RunStep σ β RunResult)
      (fun r c ↦ ∃ evs, c.observer = o₀.hear evs ∧ FollowsProtocol strategy evs (.ok r))
      (fun _ c ↦ ∃ b, OnTrack o₀ strategy b c) := by
  unfold main
  -- the strategy is announced at the stage the run starts in, at the end of its band
  refine Triple.bind (Q := fun _ c ↦
    OnTrack o₀ strategy Stage.initializing.endPercent c ∧ c.stage = .initializing) ?_ fun _ ↦ ?_
  · rintro c ⟨hobs, hstage, hstrategy⟩
    rw [publish_run]
    refine ⟨⟨by rw [hstage]; rfl, fun hfit ↦ hstrategy ▸ hfit, [_], by rw [hobs]; rfl, ?_,
      by rw [hstage]; rfl, fun _ ↦ ?_⟩, hstage⟩
    · intro e he
      rw [List.mem_singleton.mp he]
      rfl
    · exact (rising_nil _).snoc Stage.initializing.endPercent_le_self
        Stage.initializing.endPercent_le_self
  refine Triple.bind (Q := fun _ c ↦
    OnTrack o₀ strategy Stage.repairing.endPercent c ∧ c.stage = .repairing) ?_ fun _ ↦ ?_
  · -- the four stages, each entered from the end of the one before
    unfold stages
    refine Triple.forIn_cons (stage_onTrack rfl rfl _ _ _ (silent_body_paces clusterStage_silent)) ?_
    refine Triple.forIn_cons (stage_onTrack rfl rfl _ _ _ (silent_body_paces solveStage_silent)) ?_
    refine Triple.forIn_cons (stage_onTrack rfl rfl _ _ _ refineStage_paces) ?_
    refine Triple.forIn_cons (stage_onTrack rfl rfl _ _ _ repairStage_paces) ?_
    exact Triple.forIn_nil
  · -- then finalizing, and completion
    refine Triple.bind (OnTrack.transition_next rfl rfl "computing quality metrics" none) fun _ ↦
      Triple.get_bind fun c₀ hc₀ ↦ ?_
    exact Triple.bind (hc₀.1.transition_completed hc₀.2 _ _) fun _ ↦
      Triple.pure_of _ fun _ ⟨evs, hobs, hfollows⟩ ↦ ⟨evs, hobs, hfollows _⟩

/-- Describing how a run on track stopped: a fault is reported as it is, and any other stop moves
the run to a failure or a cancellation, after the stage it was at. -/
theorem fail_follows (h : OnTrack o₀ s₀ b c) (f : StageFault) :
    ∃ evs, ((fail f).run c).2.observer = o₀.hear evs ∧
      FollowsProtocol s₀ evs (.error ((fail f).run c).1) := by
  obtain ⟨evs, hobs, hlive, hwalk, -⟩ := h.heard
  cases f
  case fault m => exact ⟨evs, hobs, hlive, c.stage, h.live, hwalk⟩
  case cancelled =>
    obtain ⟨pre, last, hobs', hpre, hwalk', hlast⟩ := h.transition_stop (.inr rfl) 0 "cancelled"
      (some [("last_stage", .text c.stage.name)])
    exact ⟨pre ++ [last], hobs', pre, last, rfl, hpre, h.live, hwalk', hlast⟩
  case critical =>
    obtain ⟨pre, last, hobs', hpre, hwalk', hlast⟩ := h.transition_stop (.inl rfl) 0
      "resource_exhausted" (some [("last_stage", .text c.stage.name)])
    exact ⟨pre ++ [last], hobs', pre, last, rfl, hpre, h.live, hwalk', hlast⟩
  case invariant m =>
    obtain ⟨pre, last, hobs', hpre, hwalk', hlast⟩ := h.transition_stop (.inl rfl) 0
      "invariant_violation" (some [("last_stage", .text c.stage.name)])
    exact ⟨pre ++ [last], hobs', pre, last, rfl, hpre, h.live, hwalk', hlast⟩

end RunStep

/-- Every run follows the stage protocol of its strategy: its observer heard exactly the events it
published, in order, and they fit its outcome (`FollowsProtocol`). -/
theorem generate_follows {σ β : Type} (config : PipelineConfig) (probe : Option MemoryProbe)
    (shelf : TableShelf β) (store : β) (req : RunRequest) (o : Observer σ) :
    ∃ evs, (generate config probe shelf store req o).observer = o.hear evs ∧
      FollowsProtocol (config.strategyFor req) evs (generate config probe shelf store req o).result := by
  unfold generate
  split
  · exact ⟨[], rfl, rfl⟩
  · rename_i e _
    have hmain := @RunStep.main_protocol σ β o e (config.strategyFor req)
      (RunContext.start config probe shelf store req e (config.strategyFor req) o) ⟨rfl, rfl, rfl⟩
    dsimp only
    split <;> rename_i heq <;> rw [heq] at hmain
    · exact hmain
    · obtain ⟨b, hb⟩ := hmain
      exact RunStep.fail_follows hb _

/-- The stage protocol of a run, whatever the monitor's samples and wherever its observer asks it
to stop: the observer hears exactly the events the run published, in order, and they fit the
outcome (`FollowsProtocol`), so on a completed run whose strategy's counts fit the percentages
never decrease and the last is 100; with repeats collapsed, each stage of the events may move to
the next, so no move the stage order forbids is ever attempted; and the run completes exactly
when its last event is completion. -/
theorem run_follows_stage_protocol {σ β : Type} (config : PipelineConfig)
    (probe : Option MemoryProbe) (shelf : TableShelf β) (store : β) (req : RunRequest)
    (o : Observer σ) :
    ∃ evs, (generate config probe shelf store req o).observer = o.hear evs ∧
      FollowsProtocol (config.strategyFor req) evs (generate config probe shelf store req o).result ∧
      ((evs.map (·.stage)).destutter (· ≠ ·)).IsChain (fun a b ↦ a.canMove b = true) ∧
      ((∃ r, (generate config probe shelf store req o).result = .ok r) ↔
        evs.getLast?.map (·.stage) = some .completed) := by
  obtain ⟨evs, hobs, hfollows⟩ := generate_follows config probe shelf store req o
  exact ⟨evs, hobs, hfollows, hfollows.isChain, hfollows.ok_iff⟩

end Timetabling
