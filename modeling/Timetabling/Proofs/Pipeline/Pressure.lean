import Timetabling.Proofs.Pipeline.Outcome

/-! # Memory pressure across a run

A run with a memory monitor samples it at the check before each of its four stages. The levels the
samples find are fixed by the probe alone (`MemoryProbe.levels`): a failed sample repeats the level
before it. A critical level stops the run at the check that finds it, with the resources exhausted
after the stage it was at; the first warning degrades the strategy once, for that stage and every
later one, and records the stage it came before.

`RunContext.Pressure p S k` is what a run holds once the probe `p` has taken `k` samples on the
strategy `S`: its flags, strategy and degradation record follow the levels found. The check before a
stage takes one more sample (`RunStep.boundary_pressure`), and no stage body touches what the
invariant reads. So a whole run, whatever its samples, takes one sample per check it reaches, stops
with exhausted resources exactly at the first critical level, and otherwise reports the
degradation the first warning calls for (`memory_pressure_policy`). -/

namespace Timetabling

namespace MemoryProbe

/-- The probe after `n` samples. -/
def after (p : MemoryProbe) : Nat → MemoryProbe
  | 0 => p
  | n + 1 => (p.after n).check.2

/-- The levels the first `n` samples find, in order. -/
def levels (p : MemoryProbe) : Nat → List PressureLevel
  | 0 => []
  | n + 1 => p.levels n ++ [(p.after n).check.1]

variable (p : MemoryProbe)

@[simp] theorem length_levels (n : Nat) : (p.levels n).length = n := by
  induction n with
  | zero => rfl
  | succ n ih => simp [levels, ih]

theorem levels_succ (n : Nat) : p.levels (n + 1) = p.levels n ++ [(p.after n).check.1] := rfl

/-- Later samples extend the levels found so far. -/
theorem take_levels {m n : Nat} (h : m ≤ n) : (p.levels n).take m = p.levels m := by
  induction n with
  | zero => rw [Nat.le_zero.mp h]; rfl
  | succ n ih =>
    rcases Nat.lt_or_eq_of_le h with hlt | rfl
    · rw [levels_succ, List.take_append_of_le_length (by rw [length_levels]; omega), ih (by omega)]
    · exact List.take_of_length_le (by simp)

/-- A level is among those of one more sample exactly when it was among the earlier ones or is the
one the new sample finds. -/
theorem decide_mem_levels_succ (x : PressureLevel) (n : Nat) :
    decide (x ∈ p.levels (n + 1)) = (decide (x ∈ p.levels n) || (p.after n).check.1 == x) := by
  rw [levels_succ]
  by_cases h : (p.after n).check.1 = x
  · simp [h]
  · simp [Ne.symm h, beq_false_of_ne h]

theorem mem_levels_succ {x : PressureLevel} {n : Nat} :
    x ∈ p.levels (n + 1) ↔ x ∈ p.levels n ∨ (p.after n).check.1 = x := by
  rw [levels_succ, List.mem_append, List.mem_singleton, eq_comm]

/-- From the third sample on, the first two levels stay as they were. -/
theorem take_two_levels_succ {n : Nat} (hn : 2 ≤ n) :
    (p.levels (n + 1)).take 2 = (p.levels n).take 2 := by
  rw [take_levels p (by omega), take_levels p hn]

/-- The level the last of `n > 0` samples found is among the levels. -/
theorem check_mem_levels {n : Nat} (hn : 0 < n) : (p.after (n - 1)).check.1 ∈ p.levels n := by
  obtain ⟨m, rfl⟩ : ∃ m, n = m + 1 := ⟨n - 1, by omega⟩
  exact p.mem_levels_succ.mpr (.inr rfl)

@[simp] theorem sample_after (n : Nat) : (p.after n).sample = p.sample := by
  induction n with
  | zero => rfl
  | succ n ih => exact ih

@[simp] theorem taken_after (n : Nat) : (p.after n).taken = p.taken + n := by
  induction n with
  | zero => rfl
  | succ n ih =>
    show (p.after n).taken + 1 = _
    omega

/-- A sample leaves the monitor at the level it found. -/
theorem level_check : p.check.2.monitor.level = p.check.1 := by
  unfold check Monitor.check
  cases p.sample p.taken <;> rfl

end MemoryProbe

namespace Stage

/-- The stage the check with index `k`, counted from zero, comes before. -/
def afterCheck : Nat → Stage
  | 0 => .clustering
  | 1 => .solving
  | 2 => .refining
  | _ => .repairing

/-- The stage a run is at when it makes the check with index `k`. -/
def atCheck : Nat → Stage
  | 0 => .initializing
  | 1 => .clustering
  | 2 => .solving
  | _ => .refining

end Stage

/-- The stage before which the first warning among some levels was found, if one was. -/
def firstWarning (levels : List PressureLevel) : Option Stage :=
  (levels.findIdx? (· == .warning)).map Stage.afterCheck

theorem firstWarning_append_singleton (levels : List PressureLevel) (l : PressureLevel) :
    firstWarning (levels ++ [l]) =
      (firstWarning levels).or (if l = .warning then some (Stage.afterCheck levels.length) else none) := by
  unfold firstWarning
  by_cases h : l = .warning <;> simp [List.findIdx?_append, h]

theorem firstWarning_eq_none_iff {levels : List PressureLevel} :
    firstWarning levels = none ↔ PressureLevel.warning ∉ levels := by
  rw [firstWarning, Option.map_eq_none_iff, List.findIdx?_eq_none_iff]
  simp only [beq_eq_false_iff_ne, ne_eq]
  exact ⟨fun h hw ↦ h _ hw rfl, fun h x hx hw ↦ h (hw ▸ hx)⟩

namespace RunContext

variable {σ β : Type}

/-- The context after a sample of the probe `q`: the probe moves on, and each flag stays raised or
is raised by the level found. -/
def sampled (c : RunContext σ β) (q : MemoryProbe) : RunContext σ β :=
  { c with
    probe := some q.check.2
    critical := c.critical || q.check.1 == .critical
    warning := c.warning || q.check.1 == .warning }

/-- The context with its strategy degraded before the stage `next`, and the degradation recorded. -/
def degrade (c : RunContext σ β) (next : Stage) : RunContext σ β :=
  { c with
    strategy := c.strategy.degrade
    stats := { c.stats with degraded := true, degradedBefore := some next } }

/-- What a run holds of memory pressure once the probe `p` has taken `k` samples, on the strategy
`S` it started with: each flag is raised exactly when its level was found; the strategy is degraded,
and the degradation recorded with the stage of the first warning, exactly when a warning was found;
no cluster was solved exactly when a warning came before solving; and its observer never asks it to
stop. -/
structure Pressure (p : MemoryProbe) (S : StrategyConfig) (k : Nat) (c : RunContext σ β) : Prop where
  probe : c.probe = some (p.after k)
  critical : c.critical = decide (.critical ∈ p.levels k)
  warning : c.warning = decide (.warning ∈ p.levels k)
  strategy : c.strategy = if .warning ∈ p.levels k then S.degrade else S
  degraded : c.stats.degraded = decide (.warning ∈ p.levels k)
  degradedBefore : c.stats.degradedBefore = firstWarning (p.levels k)
  exact : k < 2 ∨ .warning ∈ (p.levels k).take 2 → c.stats.exactClusters = 0
  live : ∀ x, c.observer.stopped x = false

variable {p : MemoryProbe} {S : StrategyConfig} {k : Nat} {c : RunContext σ β}

/-- A sample that finds no first warning keeps the invariant, one sample on. -/
theorem Pressure.sampled (h : c.Pressure p S k)
    (hnew : (p.after k).check.1 = .warning → .warning ∈ p.levels k) :
    (c.sampled (p.after k)).Pressure p S (k + 1) := by
  have hw : PressureLevel.warning ∈ p.levels (k + 1) ↔ .warning ∈ p.levels k :=
    p.mem_levels_succ.trans ⟨fun h' ↦ h'.elim id hnew, .inl⟩
  refine ⟨rfl, ?_, ?_, ?_, ?_, ?_, ?_, h.live⟩
  · rw [p.decide_mem_levels_succ, ← h.critical]
    rfl
  · rw [p.decide_mem_levels_succ, ← h.warning]
    rfl
  · simp only [hw]
    exact h.strategy
  · simp only [hw]
    exact h.degraded
  · -- a warning found now was found before, so the first one stays first
    show c.stats.degradedBefore = _
    rw [h.degradedBefore, p.levels_succ, firstWarning_append_singleton]
    cases hfirst : firstWarning (p.levels k) with
    | some st => rfl
    | none =>
      have hno := firstWarning_eq_none_iff.mp hfirst
      rw [if_neg fun hl ↦ hno (hnew hl)]
      rfl
  · intro hk
    refine h.exact (hk.elim (fun hk ↦ .inl (by omega)) fun hmem ↦ ?_)
    rcases Nat.lt_or_ge k 2 with hk₂ | hk₂
    · exact .inl hk₂
    · exact .inr (p.take_two_levels_succ hk₂ ▸ hmem)

/-- A sample that finds the first warning keeps the invariant once the strategy is degraded before
the stage the check comes before. -/
theorem Pressure.sampled_degrade (h : c.Pressure p S k) (hl : (p.after k).check.1 = .warning)
    (hnew : .warning ∉ p.levels k) :
    ((c.sampled (p.after k)).degrade (Stage.afterCheck k)).Pressure p S (k + 1) := by
  have hw : PressureLevel.warning ∈ p.levels (k + 1) := p.mem_levels_succ.mpr (.inr hl)
  refine ⟨rfl, ?_, ?_, ?_, ?_, ?_, ?_, h.live⟩
  · rw [p.decide_mem_levels_succ, ← h.critical]
    rfl
  · rw [p.decide_mem_levels_succ, ← h.warning]
    rfl
  · show c.strategy.degrade = _
    rw [h.strategy, if_neg hnew, if_pos hw]
  · show true = _
    simp [hw]
  · show some (Stage.afterCheck k) = _
    rw [p.levels_succ, firstWarning_append_singleton, firstWarning_eq_none_iff.mpr hnew, if_pos hl,
      p.length_levels]
    rfl
  · -- no warning came before, so one among the first two samples is this one, at most the second
    intro hk
    refine h.exact (hk.elim (fun hk ↦ .inl (by omega)) fun hmem ↦ ?_)
    rcases Nat.lt_or_ge k 2 with hk₂ | hk₂
    · exact .inl hk₂
    · exact absurd (List.mem_of_mem_take (p.take_two_levels_succ hk₂ ▸ hmem)) hnew

/-- `c'` keeps what `c` records of memory pressure and of the stage: the probe, both flags, the
strategy, the degradation record, the count of clusters solved exactly and the stage; and its
observer stops it exactly when that of `c` would. -/
structure KeepsPressure (c c' : RunContext σ β) : Prop where
  probe : c'.probe = c.probe
  critical : c'.critical = c.critical
  warning : c'.warning = c.warning
  strategy : c'.strategy = c.strategy
  degraded : c'.stats.degraded = c.stats.degraded
  degradedBefore : c'.stats.degradedBefore = c.stats.degradedBefore
  exactClusters : c'.stats.exactClusters = c.stats.exactClusters
  stage : c'.stage = c.stage
  stopped : c'.observer.stopped = c.observer.stopped

namespace KeepsPressure

variable {c₁ c₂ : RunContext σ β}

protected theorem refl (c : RunContext σ β) : KeepsPressure c c :=
  ⟨rfl, rfl, rfl, rfl, rfl, rfl, rfl, rfl, rfl⟩

protected theorem trans (h₁ : KeepsPressure c c₁) (h₂ : KeepsPressure c₁ c₂) : KeepsPressure c c₂ :=
  ⟨h₂.probe.trans h₁.probe, h₂.critical.trans h₁.critical, h₂.warning.trans h₁.warning,
    h₂.strategy.trans h₁.strategy, h₂.degraded.trans h₁.degraded,
    h₂.degradedBefore.trans h₁.degradedBefore, h₂.exactClusters.trans h₁.exactClusters,
    h₂.stage.trans h₁.stage, h₂.stopped.trans h₁.stopped⟩

end KeepsPressure

theorem Pressure.keeps {c' : RunContext σ β} (h : c.Pressure p S k) (hk : KeepsPressure c c') :
    c'.Pressure p S k :=
  ⟨hk.probe.trans h.probe, hk.critical.trans h.critical, hk.warning.trans h.warning,
    hk.strategy.trans h.strategy, hk.degraded.trans h.degraded,
    hk.degradedBefore.trans h.degradedBefore, fun hx ↦ hk.exactClusters.trans (h.exact hx),
    fun x ↦ by rw [hk.stopped]; exact h.live x⟩

/-- Moving to a stage and reporting an event keeps the invariant. -/
theorem Pressure.moved (h : c.Pressure p S k) (stage : Stage) (ev : ProgressEvent) :
    ({ c with stage, observer := c.observer.deliver ev } : RunContext σ β).Pressure p S k :=
  ⟨h.probe, h.critical, h.warning, h.strategy, h.degraded, h.degradedBefore, h.exact, h.live⟩

/-- Starting from a strategy that is not degraded, the strategy is degraded exactly when a warning
was found. -/
theorem Pressure.strategy_degraded (h : c.Pressure p S k) (hS : S.degraded = false) :
    c.strategy.degraded = decide (.warning ∈ p.levels k) := by
  rw [h.strategy]
  split <;> simp [*]

end RunContext

namespace RunStep

variable {σ β : Type}

/-- The check before a stage, in a run its observer does not stop: it samples the probe, stops on a
critical level found now or before, and degrades the strategy on a warning found now or before
unless it is degraded already. -/
theorem boundary_run (next : Stage) (c : RunContext σ β) (q : MemoryProbe) (hq : c.probe = some q)
    (h : c.observer.halted = false) :
    Triple (· = c) (boundary next)
      (fun _ c' ↦ (c.sampled q).critical = false ∧
        c' = if (c.sampled q).warning && !(c.sampled q).strategy.degraded then
          (c.sampled q).degrade next else c.sampled q)
      (fun f c' ↦ f = .critical ∧ (c.sampled q).critical = true ∧ c' = c.sampled q) := by
  unfold boundary
  refine Triple.bind (Q := fun _ c' ↦ c' = c) ?_ fun _ ↦ Triple.get_bind fun c₁ hc₁ ↦ ?_
  · unfold checkStop
    refine Triple.get_bind fun c₀ hc₀ ↦ ?_
    subst c₀
    exact Triple.ite_of (fun hf ↦ absurd hf (by rw [h]; decide)) fun _ ↦ Triple.pure_of () fun _ h ↦ h
  subst c₁
  rw [hq]
  dsimp only
  refine Triple.bind (Triple.set_of (Q := fun _ c' ↦ c' = c.sampled q) fun _ _ ↦ rfl) fun _ ↦
    Triple.get_bind fun c₂ hc₂ ↦ ?_
  subst c₂
  refine Triple.ite_of (fun hcrit ↦ ?_) fun hcrit ↦ ?_
  · exact Triple.bind (Q := fun _ _ ↦ False) (Triple.throw_of _ fun _ h ↦ ⟨rfl, hcrit, h⟩)
      fun _ _ h ↦ h.elim
  · have hcalm : (c.sampled q).critical = false := by simpa using hcrit
    exact Triple.ite_of (fun hdeg ↦ Triple.set_of fun _ _ ↦ ⟨hcalm, by rw [if_pos hdeg]; rfl⟩)
      fun hdeg ↦ Triple.pure_of () fun _ h ↦ ⟨hcalm, by rw [if_neg hdeg]; exact h⟩

open RunContext

variable {p : MemoryProbe} {S : StrategyConfig} {k : Nat} {s : Stage}

/-- The check after `k` samples, in a run that has found no critical level: it finds a critical
level and stops the run, or lets it go on with a normal level or a warning, degrading the strategy
on the first warning. Either way the invariant holds one sample on, and the stage is as it was. -/
theorem boundary_pressure (hS : S.degraded = false) :
    Triple (fun c : RunContext σ β ↦ c.Pressure p S k ∧ .critical ∉ p.levels k ∧ c.stage = s)
      (boundary (Stage.afterCheck k))
      (fun _ c ↦ c.Pressure p S (k + 1) ∧ .critical ∉ p.levels (k + 1) ∧ c.stage = s)
      (fun f c ↦ f = .critical ∧ c.Pressure p S (k + 1) ∧ .critical ∉ p.levels k ∧
        (p.after k).check.1 = .critical ∧ c.stage = s) := by
  rintro c ⟨h, hcalm, hs⟩
  have hdeg := h.strategy_degraded hS
  refine (boundary_run (Stage.afterCheck k) c (p.after k) h.probe (h.live _)).mono (fun _ h ↦ h)
    (fun _ c' ⟨hcrit, hc'⟩ ↦ ?_) (fun f c' ⟨hf, hcrit, hc'⟩ ↦ ?_) c rfl
  · -- the level found is normal or a warning
    have hl : (p.after k).check.1 ≠ .critical := fun hl ↦ by
      simp [RunContext.sampled, hl] at hcrit
    have hcalm' : PressureLevel.critical ∉ p.levels (k + 1) :=
      fun hmem ↦ (p.mem_levels_succ.mp hmem).elim hcalm hl
    subst hc'
    split
    · -- the first warning degrades the strategy
      rename_i hfirst
      simp only [RunContext.sampled, h.warning, hdeg] at hfirst
      by_cases hw : PressureLevel.warning ∈ p.levels k
      · simp [hw] at hfirst
      · simp only [hw, decide_false, Bool.false_or, Bool.not_false, Bool.and_true,
          beq_iff_eq] at hfirst
        exact ⟨h.sampled_degrade hfirst hw, hcalm', hs⟩
    · rename_i hlater
      refine ⟨h.sampled fun hl ↦ (Decidable.em _).elim id fun hw ↦ absurd ?_ hlater, hcalm', hs⟩
      simp [RunContext.sampled, h.warning, hdeg, hl, hw]
  · -- a critical level stops the run
    have hl : (p.after k).check.1 = .critical := by
      simpa [RunContext.sampled, h.critical, hcalm] using hcrit
    subst hc'
    exact ⟨hf, h.sampled fun hw ↦ absurd (hl.symm.trans hw) (by decide), hcalm, hl, hs⟩

/-! ## Stage bodies leave the pressure record alone -/

/-- A fold over statistics whose every step keeps a figure keeps it. -/
theorem foldl_stats_keeps {α γ : Type} (g : RunStats → γ) {f : RunStats → α → RunStats}
    {l : List α} (hf : ∀ st, ∀ a ∈ l, g (f st a) = g st) (st : RunStats) :
    g (l.foldl f st) = g st :=
  List.foldlRecOn (motive := fun st' ↦ g st' = g st) l f rfl fun _ h a ha ↦ (hf _ a ha).trans h

/-- The check to stop changes nothing, whether it stops the run or not. -/
theorem checkStop_keeps {P : RunContext σ β → Prop} :
    Triple P checkStop (fun _ ↦ P) (fun f c ↦ f ≠ .critical ∧ P c) := by
  unfold checkStop
  refine Triple.get_bind fun c₀ hc₀ ↦ ?_
  exact Triple.ite_of (fun _ ↦ Triple.throw_of _ fun _ h ↦ ⟨nofun, h ▸ hc₀⟩)
    fun _ ↦ Triple.pure_of _ fun _ h ↦ h ▸ hc₀

theorem clusterStage_keeps (c₀ : RunContext σ β) :
    Triple (· = c₀) clusterStage (fun _ ↦ KeepsPressure c₀)
      (fun f c ↦ f ≠ .critical ∧ KeepsPressure c₀ c) := by
  unfold clusterStage
  refine Triple.get_bind fun c₁ hc₁ ↦ ?_
  subst c₁
  dsimp only
  split
  on_goal 1 =>
    refine Triple.bind ((checkStop_keeps (P := (· = c₀))).mono (fun _ h ↦ h) (fun _ _ h ↦ h)
      fun _ _ h ↦ ⟨h.1, h.2 ▸ .refl c₀⟩) fun _ ↦ ?_
  all_goals
    exact Triple.bind (Triple.set_of (Q := fun _ ↦ KeepsPressure c₀) fun _ _ ↦
      ⟨rfl, rfl, rfl, rfl, rfl, rfl, rfl, rfl, rfl⟩) fun _ ↦ Triple.pure_of _ fun _ h ↦ h

/-- Solving after the third check keeps the record; with a degraded strategy it solves every
cluster greedily, so the count of clusters solved exactly stays as it was. -/
theorem solveStage_pressure (hk : 2 ≤ k) {s : Stage} :
    Triple (fun c : RunContext σ β ↦ c.Pressure p S k ∧ c.stage = s) solveStage
      (fun _ c ↦ c.Pressure p S k ∧ c.stage = s)
      (fun f c ↦ f ≠ .critical ∧ c.Pressure p S k ∧ c.stage = s) := by
  unfold solveStage
  refine Triple.bind checkStop_keeps fun _ ↦ Triple.get_bind fun c₁ ⟨hc₁, hs⟩ ↦ ?_
  dsimp only
  refine Triple.bind (Triple.set_of (Q := fun _ c ↦ c.Pressure p S k ∧ c.stage = s)
    fun _ _ ↦ ⟨?_, hs⟩) fun _ ↦ Triple.pure_of _ fun _ h ↦ h
  -- counting the clusters touches neither the degradation record nor, greedily, the exact count
  refine ⟨hc₁.probe, hc₁.critical, hc₁.warning, hc₁.strategy, ?_, ?_, fun hx ↦ ?_, hc₁.live⟩
  · exact (foldl_stats_keeps RunStats.degraded (fun _ _ _ ↦ by split <;> rfl) _).trans hc₁.degraded
  · exact (foldl_stats_keeps RunStats.degradedBefore (fun _ _ _ ↦ by split <;> rfl) _).trans
      hc₁.degradedBefore
  · have hw : PressureLevel.warning ∈ p.levels k := by
      rcases hx with hx | hx
      · omega
      · exact List.mem_of_mem_take hx
    have hmode : (c₁.strategy.solverMode == "exact") = false := by
      rw [hc₁.strategy, if_pos hw, StrategyConfig.degrade_solverMode]
      decide
    refine (foldl_stats_keeps RunStats.exactClusters (fun st a ha ↦ ?_) _).trans (hc₁.exact hx)
    obtain ⟨cl, -, rfl⟩ := List.mem_map.mp ha
    simp [Cluster.solve, hmode]

/-- A refinement note reports progress, or nothing. -/
theorem refineNote_keeps (every : Nat) (c : RunContext σ β) (gen : Nat) (total : Int)
    (best : Fitness) : KeepsPressure c (refineNote every c gen total best) := by
  unfold refineNote
  split
  · exact .refl c
  · exact ⟨rfl, rfl, rfl, rfl, rfl, rfl, rfl, rfl, rfl⟩

/-- A repair note reports progress, or nothing. -/
theorem repairNote_keeps (every : Nat) (c : RunContext σ β) (it : Nat) (total : Int)
    (remaining : Nat) : KeepsPressure c (repairNote every c it total remaining) := by
  unfold repairNote
  split
  · exact .refl c
  · exact ⟨rfl, rfl, rfl, rfl, rfl, rfl, rfl, rfl, rfl⟩

theorem refineStage_keeps (c₀ : RunContext σ β) :
    Triple (· = c₀) refineStage (fun _ ↦ KeepsPressure c₀)
      (fun f c ↦ f ≠ .critical ∧ KeepsPressure c₀ c) := by
  unfold refineStage
  refine Triple.get_bind fun c₁ hc₁ ↦ ?_
  subst c₁
  dsimp only
  refine Triple.ite_of (fun _ ↦ Triple.pure_of _ fun _ h ↦ h ▸ .refl c₀) fun _ ↦ ?_
  generalize RefineConfig.mk _ _ _ _ _ _ _ = cfg
  -- the watch hands back the context with only progress reported
  obtain ⟨c₂, hw, hc₂⟩ := Timetable.refine_watch (I := KeepsPressure c₀)
    (c₀.timetable.getD (Timetable.empty c₀.catalog)) c₀.domain cfg
    ⟨c₀, refineNote c₀.config.every, fun c ↦ c.observer.halted⟩
    (fun c gen total best h ↦ h.trans (refineNote_keeps _ c gen total best)) (.refl c₀)
  split <;> rename_i heq <;> rw [heq] at hw <;> cases hw
  · exact Triple.bind (Triple.set_of (Q := fun _ ↦ KeepsPressure c₀) fun _ _ ↦ hc₂)
      fun _ ↦ Triple.throw_of _ fun _ h ↦ ⟨nofun, h⟩
  · exact Triple.bind (Triple.set_of (Q := fun _ ↦ KeepsPressure c₀) fun _ _ ↦
      hc₂.trans ⟨rfl, rfl, rfl, rfl, rfl, rfl, rfl, rfl, rfl⟩) fun _ ↦ Triple.pure_of _ fun _ h ↦ h

theorem repairStage_keeps (c₀ : RunContext σ β) :
    Triple (· = c₀) repairStage (fun _ ↦ KeepsPressure c₀)
      (fun f c ↦ f ≠ .critical ∧ KeepsPressure c₀ c) := by
  unfold repairStage
  refine Triple.get_bind fun c₁ hc₁ ↦ ?_
  subst c₁
  generalize c₀.shelf.load c₀.store c₀.request.scope = loaded
  obtain ⟨loaded, store⟩ := loaded
  dsimp only
  generalize loaded.toOption.getD _ = table
  refine Triple.bind (Triple.set_of (Q := fun _ _ ↦ True) fun _ _ ↦ trivial) fun _ ↦ ?_
  generalize RepairConfig.mk _ _ _ _ _ _ _ = cfg
  let c₂ : RunContext σ β :=
    { c₀ with store, stats := { c₀.stats with qtableVersion := table.version } }
  -- the watch hands back the context with only progress reported
  obtain ⟨c₃, hw, hc₃⟩ := Timetable.repair_watch (I := KeepsPressure c₀)
    (c₀.timetable.getD (Timetable.empty c₀.catalog)) c₀.domain table cfg
    ⟨c₂, repairNote c₀.config.every, fun c ↦ c.observer.halted⟩
    (fun c it total left h ↦ h.trans (repairNote_keeps _ c it total left))
    ⟨rfl, rfl, rfl, rfl, rfl, rfl, rfl, rfl, rfl⟩
  split <;> rename_i heq <;> rw [heq] at hw <;> cases hw
  · exact Triple.bind (Triple.set_of (Q := fun _ ↦ KeepsPressure c₀) fun _ _ ↦ hc₃)
      fun _ ↦ Triple.throw_of _ fun _ h ↦ ⟨nofun, h⟩
  · exact Triple.bind (Triple.set_of (Q := fun _ ↦ KeepsPressure c₀) fun _ _ ↦ hc₃)
      fun _ ↦ Triple.throw_of _ fun _ h ↦ ⟨nofun, h⟩
  · exact Triple.bind (Triple.set_of (Q := fun _ ↦ KeepsPressure c₀) fun _ _ ↦
      hc₃.trans ⟨rfl, rfl, rfl, rfl, rfl, rfl, rfl, rfl, rfl⟩) fun _ ↦ Triple.pure_of _ fun _ h ↦ h

theorem commitTable_keeps (c₀ : RunContext σ β) :
    Triple (· = c₀) commitTable (fun _ ↦ KeepsPressure c₀)
      (fun f c ↦ f ≠ .critical ∧ KeepsPressure c₀ c) := by
  unfold commitTable
  refine Triple.get_bind fun c₁ hc₁ ↦ ?_
  subst c₁
  split
  · exact Triple.pure_of () fun _ h ↦ h ▸ .refl c₀
  · refine Triple.bind (Triple.set_of (Q := fun _ _ ↦ True) fun _ _ ↦ trivial) fun _ ↦ ?_
    split <;> exact Triple.set_of fun _ _ ↦ ⟨rfl, rfl, rfl, rfl, rfl, rfl, rfl, rfl, rfl⟩

/-- A body that keeps the record keeps the invariant and the stage, however it ends. -/
theorem Triple.pressure {α : Type} {x : RunStep σ β α}
    (hx : ∀ c₀, Triple (· = c₀) x (fun _ ↦ KeepsPressure c₀)
      (fun f c ↦ f ≠ .critical ∧ KeepsPressure c₀ c)) :
    Triple (fun c : RunContext σ β ↦ c.Pressure p S k ∧ c.stage = s) x
      (fun _ c ↦ c.Pressure p S k ∧ c.stage = s)
      (fun f c ↦ f ≠ .critical ∧ c.Pressure p S k ∧ c.stage = s) := by
  rintro c ⟨h, hs⟩
  exact (hx c).mono (fun _ h ↦ h) (fun _ c' hk ↦ ⟨h.keeps hk, hk.stage.trans hs⟩)
    (fun _ c' ⟨hf, hk⟩ ↦ ⟨hf, h.keeps hk, hk.stage.trans hs⟩) c rfl

/-! ## A whole run -/

/-- A move to a stage the order allows keeps the invariant and reaches that stage. -/
theorem transition_pressure {target : Stage} (fraction : Float) (step : String)
    (detail : Option (List (String × DetailValue))) {R : StageFault → RunContext σ β → Prop} :
    Triple (fun c : RunContext σ β ↦ c.Pressure p S k ∧ c.stage.canMove target = true)
      (transition target fraction step detail) (fun _ c ↦ c.Pressure p S k ∧ c.stage = target) R := by
  rintro c ⟨h, hmove⟩
  rw [transition_run, if_pos (.inr hmove)]
  exact ⟨h.moved _ _, rfl⟩

theorem Stage.canMove_afterCheck {k : Nat} (hk : k < 4) :
    (Stage.atCheck k).canMove (Stage.afterCheck k) = true := by
  match k, hk with
  | 0, _ => rfl
  | 1, _ => rfl
  | 2, _ => rfl
  | 3, _ => rfl

/-- How a run stopped by the fault `f` left its context `c`, after `n` samples: the invariant holds;
a stop on critical pressure came at the check that took the last sample, which found the first
critical level, at the stage the run was at then; any other stop came with no critical level
found. -/
def StoppedUnder (p : MemoryProbe) (S : StrategyConfig) (f : StageFault) (c : RunContext σ β) :
    Prop :=
  ∃ n ≤ 4, c.Pressure p S n ∧
    (f = .critical → 0 < n ∧ .critical ∉ p.levels (n - 1) ∧
      (p.after (n - 1)).check.1 = .critical ∧ c.stage = Stage.atCheck (n - 1)) ∧
    (f ≠ .critical → .critical ∉ p.levels n)

/-- A stage with the check before it, after `k` samples that found no critical level: it ends with
one sample more and still none critical, at its own stage, or it stops as `StoppedUnder` says. -/
theorem stage_pressure (hS : S.degraded = false) (k : Nat) (hk : k < 4)
    (exclusive validate commit : Bool) {body : RunStep σ β (List (String × Int))}
    (hbody : Triple (fun c : RunContext σ β ↦ c.Pressure p S (k + 1) ∧ c.stage = Stage.afterCheck k)
      body (fun _ c ↦ c.Pressure p S (k + 1) ∧ c.stage = Stage.afterCheck k)
      (fun f c ↦ f ≠ .critical ∧ c.Pressure p S (k + 1) ∧ c.stage = Stage.afterCheck k)) :
    Triple (fun c : RunContext σ β ↦ c.Pressure p S k ∧ .critical ∉ p.levels k ∧
        c.stage = Stage.atCheck k)
      (boundary (Stage.afterCheck k) *> execute (Stage.afterCheck k) exclusive validate commit body)
      (fun _ c ↦ c.Pressure p S (k + 1) ∧ .critical ∉ p.levels (k + 1) ∧
        c.stage = Stage.afterCheck k)
      (StoppedUnder p S) := by
  refine Triple.seqRight ((boundary_pressure hS).mono (fun _ h ↦ h) (fun _ _ h ↦ h)
    fun f c ⟨hf, h, hcalm, hl, hs⟩ ↦ ⟨k + 1, hk, h, fun _ ↦ ⟨by omega, hcalm, hl, hs⟩,
      fun hne ↦ absurd hf hne⟩) fun _ ↦ ?_
  rintro c ⟨h, hcalm, hs⟩
  -- a stop inside the stage comes with the sample just taken, which was not critical
  have hstop : ∀ f (c : RunContext σ β), f ≠ .critical → c.Pressure p S (k + 1) →
      StoppedUnder p S f c :=
    fun f c hf h ↦ ⟨k + 1, hk, h, fun hc ↦ absurd hc hf, fun _ ↦ hcalm⟩
  refine execute_triple (Stage.afterCheck k) exclusive validate commit
    (transition_pressure 0 "started" none) (hbody.mono (fun _ h ↦ h) (fun _ _ h ↦ h)
      fun f c ⟨hf, h, _⟩ ↦ hstop f c hf h) (fun c m h ↦ hstop (.invariant m) c nofun h.1) ?_
    (fun c _ (h : c.Pressure p S (k + 1) ∧ c.stage = Stage.afterCheck k) ↦
      ⟨h.1.keeps ⟨rfl, rfl, rfl, rfl, rfl, rfl, rfl, rfl, rfl⟩, hcalm, h.2⟩) c
    ⟨h, by rw [hs]; exact Stage.canMove_afterCheck hk⟩
  cases commit
  · exact Triple.pure_of () fun _ h ↦ h
  · rw [if_pos rfl]
    exact (Triple.pressure commitTable_keeps).mono (fun _ h ↦ h) (fun _ _ h ↦ h)
      fun f c ⟨hf, h, _⟩ ↦ hstop f c hf h

/-- The steps of a run with a monitor, from a strategy that is not degraded, whose observer never
asks it to stop: it completes with all four samples taken and no critical level found, recording
the strategy and statistics it ends with; or it stops as `StoppedUnder` says. -/
theorem main_pressure (hS : S.degraded = false) (e : Catalog) (strategy : StrategyConfig) :
    Triple (fun c : RunContext σ β ↦ c.Pressure p S 0 ∧ c.stage = .initializing)
      (main e strategy)
      (fun r c ↦ c.Pressure p S 4 ∧ .critical ∉ p.levels 4 ∧ r.strategy = c.strategy ∧
        r.stats = c.stats)
      (StoppedUnder p S) := by
  unfold main
  -- the strategy is announced at the stage the run starts in
  refine Triple.bind (Q := fun _ c ↦ c.Pressure p S 0 ∧ .critical ∉ p.levels 0 ∧
    c.stage = .initializing) (fun c ⟨h, hs⟩ ↦ ⟨h.moved c.stage _, nofun, hs⟩) fun _ ↦ ?_
  refine Triple.bind (Q := fun _ c ↦ c.Pressure p S 4 ∧ .critical ∉ p.levels 4 ∧
    c.stage = .repairing) ?_ fun _ ↦ ?_
  · -- the four stages, each after its check
    unfold stages
    refine Triple.forIn_cons (stage_pressure hS 0 (by decide) _ _ _
      (Triple.pressure clusterStage_keeps)) ?_
    refine Triple.forIn_cons (stage_pressure hS 1 (by decide) _ _ _
      (solveStage_pressure (by decide))) ?_
    refine Triple.forIn_cons (stage_pressure hS 2 (by decide) _ _ _
      (Triple.pressure refineStage_keeps)) ?_
    refine Triple.forIn_cons (stage_pressure hS 3 (by decide) _ _ _
      (Triple.pressure repairStage_keeps)) ?_
    exact Triple.forIn_nil
  · -- then finalizing and completion, which only report
    rintro c ⟨h, hcalm, hs⟩
    refine Triple.bind (transition_pressure 0 _ none) (fun _ ↦ Triple.get_bind fun c₀ hc₀ ↦ ?_) c
      ⟨h, by rw [hs]; rfl⟩
    refine Triple.bind (Q := fun _ c ↦ c.Pressure p S 4 ∧ c.strategy = c₀.strategy ∧
      c.stats = c₀.stats) ?_ fun _ ↦ Triple.pure_of _ fun _ h ↦ ⟨h.1, hcalm, h.2.1.symm, h.2.2.symm⟩
    rintro c rfl
    rw [transition_run, if_pos (.inr (by rw [hc₀.2]; rfl))]
    exact ⟨hc₀.1.moved _ _, rfl, rfl⟩

/-- A stop on critical pressure is described as exhausted resources, after the stage the run was at,
with its statistics. -/
theorem fail_critical (c : RunContext σ β) :
    ((fail .critical).run c).1 =
      .stopped .resourceExhausted c.stage "memory pressure critical" c.stats := by
  obtain ⟨stage, o, hc⟩ := fail_moved .critical c
  have hst : ((fail .critical).run c).2.stats = c.stats := by rw [hc]
  rw [← hst]
  rfl

/-- Any other stop is described with another kind, and with the run's statistics. -/
theorem fail_stopped_of_ne {f : StageFault} (hf : f ≠ .critical) {c : RunContext σ β}
    {kind : FailureKind} {last : Stage} {cause : String} {st : RunStats}
    (h : ((fail f).run c).1 = .stopped kind last cause st) :
    kind ≠ .resourceExhausted ∧ st = c.stats := by
  obtain ⟨stage, o, hc⟩ := fail_moved f c
  have hst : ((fail f).run c).2.stats = c.stats := by rw [hc]
  cases f with
  | critical => exact absurd rfl hf
  | cancelled =>
    have hd : ((fail .cancelled).run c).1 = .stopped .cancelled c.stage "context canceled"
        ((fail .cancelled).run c).2.stats := rfl
    rw [hd] at h
    cases h
    exact ⟨by decide, hst⟩
  | invariant m =>
    have hd : ((fail (.invariant m)).run c).1 = .stopped .invariantViolation c.stage m
        ((fail (.invariant m)).run c).2.stats := rfl
    rw [hd] at h
    cases h
    exact ⟨by decide, hst⟩
  | fault m => cases h

end RunStep

/-- The statistics `st` record the degradation the levels `levels` call for: degraded exactly when
a warning was found, before the stage of the first one, and with no cluster solved exactly when a
warning came at one of the first two checks. -/
structure RunStats.RecordsDegradation (st : RunStats) (levels : List PressureLevel) : Prop where
  degraded : st.degraded = decide (.warning ∈ levels)
  degradedBefore : st.degradedBefore = firstWarning levels
  exact : .warning ∈ levels.take 2 → st.exactClusters = 0

theorem RunContext.Pressure.recordsDegradation {σ β : Type} {p : MemoryProbe} {S : StrategyConfig}
    {k : Nat} {c : RunContext σ β} (h : c.Pressure p S k) :
    c.stats.RecordsDegradation (p.levels k) :=
  ⟨h.degraded, h.degradedBefore, fun hw ↦ h.exact (.inr hw)⟩

/-- A run starts with no sample taken. -/
theorem RunContext.Pressure.start {σ β : Type} (config : PipelineConfig) (p : MemoryProbe)
    (shelf : TableShelf β) (store : β) (req : RunRequest) (e : Catalog) (S : StrategyConfig)
    {o : Observer σ} (hlive : ∀ x, o.stopped x = false) :
    (RunContext.start config (some p) shelf store req e S o).Pressure p S 0 :=
  ⟨rfl, rfl, rfl, if_neg List.not_mem_nil |>.symm, rfl, rfl, fun _ ↦ rfl, hlive⟩

/-- The memory-pressure policy, as a run's outcome shows it, for the probe `p` and the strategy `S`
the run started with. The probe took one sample per check the run reached, `n` in all. A critical
level among them is the first critical one and the last sample: the run stopped on it with its
resources exhausted, in the stage it was at, so the stage after the check never started. With none
critical, the run did not stop for lack of resources, and it completed only after all four checks,
on the strategy it started with, degraded once exactly when a warning was found. Either way its
statistics record the degradation the levels call for. -/
def RunOutcome.PressurePolicy {σ β : Type} (p : MemoryProbe) (S : StrategyConfig)
    (out : RunOutcome σ β) : Prop :=
  ∃ n ≤ 4, out.probe = some (p.after n) ∧
    (PressureLevel.critical ∈ p.levels n → .critical ∉ p.levels (n - 1) ∧ ∃ st,
      out.result = .error (.stopped .resourceExhausted (Stage.atCheck (n - 1))
        "memory pressure critical" st) ∧ st.RecordsDegradation (p.levels n)) ∧
    (PressureLevel.critical ∉ p.levels n →
      (∀ r, out.result = .ok r → n = 4 ∧
        r.strategy = (if .warning ∈ p.levels n then S.degrade else S) ∧
        r.stats.RecordsDegradation (p.levels n)) ∧
      ∀ kind last cause st, out.result = .error (.stopped kind last cause st) →
        kind ≠ .resourceExhausted ∧ st.RecordsDegradation (p.levels n))

/-- A run with a memory monitor, from a strategy not yet degraded and with an observer that never
asks it to stop, follows the memory-pressure policy, whatever levels the samples find. -/
theorem memory_pressure_policy {σ β : Type} (config : PipelineConfig) (p : MemoryProbe)
    (shelf : TableShelf β) (store : β) (req : RunRequest) (o : Observer σ) {e : Catalog}
    (hreq : req.catalog = some e) (hlive : ∀ x, o.stopped x = false)
    (hfresh : (config.strategyFor req).degraded = false) :
    (generate config (some p) shelf store req o).PressurePolicy p (config.strategyFor req) := by
  have hmain := RunStep.main_pressure (σ := σ) (β := β) hfresh e (config.strategyFor req) _
    ⟨.start config p shelf store req e _ hlive, rfl⟩
  unfold generate
  rw [hreq]
  dsimp only
  split <;> rename_i heq <;> rw [heq] at hmain
  · -- a completed run took all four samples and found no critical level
    rename_i r c
    obtain ⟨h, hcalm, hstrategy, hstats⟩ := hmain
    refine ⟨4, le_refl 4, h.probe, fun hc ↦ absurd hc hcalm,
      fun _ ↦ ⟨fun r' hr ↦ ?_, fun _ _ _ _ hr ↦ (nomatch hr)⟩⟩
    cases hr
    exact ⟨rfl, hstrategy.trans h.strategy, hstats ▸ h.recordsDegradation⟩
  · rename_i f c
    obtain ⟨n, hn, h, hcrit, hother⟩ := hmain
    -- describing the stop keeps the probe
    have hprobe : ((RunStep.fail f).run c).2.probe = c.probe := by
      obtain ⟨stage, o', hc'⟩ := RunStep.fail_moved f c
      rw [hc']
    refine ⟨n, hn, hprobe.trans h.probe, fun hc ↦ ?_,
      fun hc ↦ ⟨fun r hr ↦ (nomatch hr), fun kind last cause st hr ↦ ?_⟩⟩
    · -- a critical level among the samples is what stopped the run
      have hf : f = .critical := Classical.byContradiction fun hf ↦ hother hf hc
      subst hf
      obtain ⟨-, hfirst, -, hs⟩ := hcrit rfl
      refine ⟨hfirst, c.stats, ?_, h.recordsDegradation⟩
      show Except.error ((RunStep.fail .critical).run c).1 = _
      rw [RunStep.fail_critical, hs]
    · -- any other stop came with no critical level found
      have hf : f ≠ .critical := fun hf ↦ by
        obtain ⟨hpos, -, hl, -⟩ := hcrit hf
        exact hc (hl ▸ p.check_mem_levels hpos)
      obtain ⟨hkind, hst⟩ := RunStep.fail_stopped_of_ne hf (Except.error.inj hr)
      exact ⟨hkind, hst ▸ h.recordsDegradation⟩

/-- A monitor that warns from 80% of the limit and is critical from 92%, reading half the limit,
then 85%, then failing to read, then 95%. -/
def risingProbe : MemoryProbe :=
  { monitor := { warning := 0.8, critical := 0.92 }, sample := Usage.replay [50, 85, -1, 95] 100 }

theorem memory_pressure_policy_risingProbe :
    ∃ e, Catalog.build Domain.singleRecords = .ok e ∧
      (∀ x, (⟨(), fun s _ ↦ s, fun _ ↦ false⟩ : Observer Unit).stopped x = false) ∧
      (PipelineConfig.strategyFor .oneCommunityUntimed { catalog := some e, strategy := some {} }).degraded = false ∧
      (generate .oneCommunityUntimed (some risingProbe) TableStore.shelf {} { catalog := some e, strategy := some {} }
        (⟨(), fun s _ ↦ s, fun _ ↦ false⟩ : Observer Unit)).PressurePolicy risingProbe {} := by
  cases hb : Catalog.build Domain.singleRecords with
  | error err =>
    simp [Domain.singleRecords, Catalog.build, Catalog.indexFaculty, Catalog.indexSlots,
      Catalog.indexRooms, Catalog.indexCourses, Catalog.courseStudents, stableSort, dedupStrings,
      sortStrings] at hb
    cases hb
  | ok e =>
    exact ⟨e, rfl, fun _ ↦ rfl, rfl,
      memory_pressure_policy .oneCommunityUntimed risingProbe TableStore.shelf {} _ _ rfl (fun _ ↦ rfl) rfl⟩

end Timetabling
