import Timetabling.Proofs.Number.Scale
import Timetabling.Strategy.Table

/-! # Choosing a strategy

A strategy takes its settings from the table's tier for the machine, and the quality scales the
effort of the exact, genetic and repair phases through a double: by a half for `fast` and by two
for `best`, the fraction dropped, each count then raised to its floor.

For settings below `2^61` in magnitude the scaling is exact up to that truncation
(`Quality.truncToInt64_ofInt_mul_scaleOf`). Every floored count then grows from fast to balanced
to best (`StrategyConfig.EffortLE`). So does the timeout when it is not negative; a negative
timeout, which a table document may give, is halved toward zero for `fast` and doubled for
`best`, so it runs the other way. Worker counts stay between one and the machine's cores and the
population at four or more (`StrategyConfig.Sane`), and degrading a chosen strategy keeps each
count it halves between one and its old value (`StrategyConfig.Shrinks`). Main statement:
`StrategyConfig.select_follows_quality`. -/

namespace Timetabling

/-! ### Integer helpers -/

theorem maxInt_eq_max (a b : ℤ) : maxInt a b = max a b := by
  unfold maxInt
  split_ifs <;> omega

/-- Truncating division by two, in terms of floor division on each side of zero. -/
theorem tdiv_two_spec (x : ℤ) : (0 ≤ x → x.tdiv 2 = x / 2) ∧ (x < 0 → x.tdiv 2 = -(-x / 2)) := by
  constructor
  · exact Int.tdiv_eq_ediv_of_nonneg
  · intro h
    rw [← Int.neg_neg x, Int.neg_tdiv, Int.tdiv_eq_ediv_of_nonneg (by omega), Int.neg_neg]

/-- Half again of a count up to `2^62` stays within 64-bit integers. -/
theorem wrapInt64_add_tdiv_two {x : ℤ} (h₀ : 0 ≤ x) (h₁ : x ≤ 2 ^ 62) :
    wrapInt64 (x + x.tdiv 2) = x + x / 2 := by
  have hpow₆₃ : Int.pow 2 63 = 2 ^ 63 := rfl
  have hpow₆₄ : Int.pow 2 64 = 2 ^ 64 := rfl
  have hhalf := (tdiv_two_spec x).1 h₀
  rw [wrapInt64, hpow₆₃, hpow₆₄, hhalf]
  omega

/-- A clamped worker count lies between one and the machine's cores, of which there is taken to
be at least one. -/
theorem clampWorkers_mem (requested cores : ℤ) :
    1 ≤ clampWorkers requested cores ∧ clampWorkers requested cores ≤ max 1 cores := by
  unfold clampWorkers
  dsimp only
  split_ifs <;> omega

/-! ### Scaling by quality -/

namespace TierSettings

/-- Every setting that the quality scales is below `2^61` in magnitude, so that doubling it stays
within 64-bit integers. -/
structure Scalable (s : TierSettings) : Prop where
  solverTimeout : s.solverTimeout.natAbs < 2 ^ 61
  nodeBudget : s.nodeBudget.natAbs < 2 ^ 61
  populationSize : s.populationSize.natAbs < 2 ^ 61
  generations : s.generations.natAbs < 2 ^ 61
  repairIterations : s.repairIterations.natAbs < 2 ^ 61

instance (s : TierSettings) : Decidable s.Scalable :=
  decidable_of_iff (s.solverTimeout.natAbs < 2 ^ 61 ∧ s.nodeBudget.natAbs < 2 ^ 61 ∧
      s.populationSize.natAbs < 2 ^ 61 ∧ s.generations.natAbs < 2 ^ 61 ∧
      s.repairIterations.natAbs < 2 ^ 61)
    ⟨fun ⟨h₁, h₂, h₃, h₄, h₅⟩ ↦ ⟨h₁, h₂, h₃, h₄, h₅⟩, fun ⟨h₁, h₂, h₃, h₄, h₅⟩ ↦ ⟨h₁, h₂, h₃, h₄, h₅⟩⟩

end TierSettings

namespace Quality

@[simp] theorem scaleOf_fast : scaleOf "fast" = 0.5 := by simp [scaleOf]

@[simp] theorem scaleOf_balanced : scaleOf "balanced" = 1 := by simp [scaleOf]

@[simp] theorem scaleOf_best : scaleOf "best" = 2 := by simp [scaleOf]

/-- The factor of a quality as whole-number scaling: half, toward zero, for `fast`, double for
`best`, and the value itself for any other text. -/
theorem truncToInt64_ofInt_mul_scaleOf (v : ℤ) (hv : v.natAbs < 2 ^ 61) (quality : String) :
    truncToInt64 (Float.ofInt v * scaleOf quality) =
      if quality == "fast" then (truncToInt64 (Float.ofInt v)).tdiv 2
      else if quality == "best" then 2 * truncToInt64 (Float.ofInt v)
      else truncToInt64 (Float.ofInt v) := by
  unfold scaleOf
  split_ifs
  · exact truncToInt64_ofInt_mul_half v hv
  · exact truncToInt64_ofInt_mul_two v hv
  · exact truncToInt64_ofInt_mul_one v hv

theorem natAbs_truncToInt64_ofInt_mul_scaleOf_le (v : ℤ) (hv : v.natAbs < 2 ^ 61)
    (quality : String) : (truncToInt64 (Float.ofInt v * scaleOf quality)).natAbs ≤ 2 ^ 62 := by
  have hle := natAbs_truncToInt64_ofInt_le v hv
  have hhalf := tdiv_two_spec (truncToInt64 (Float.ofInt v))
  rw [truncToInt64_ofInt_mul_scaleOf v hv]
  split_ifs <;> omega

end Quality

theorem floor_le_scaleSetting (v : ℤ) (factor : Float) (floor : ℤ) :
    floor ≤ scaleSetting v factor floor := by
  rw [scaleSetting, maxInt_eq_max]
  exact le_max_right _ _

/-- A setting below `2^61` scaled for any quality and raised to a floor of at most `2^62` lies
between the floor and `2^62`. -/
theorem scaleSetting_mem (v : ℤ) (hv : v.natAbs < 2 ^ 61) (quality : String) (floor : ℤ)
    (hf : floor ≤ 2 ^ 62) :
    floor ≤ scaleSetting v (Quality.scaleOf quality) floor ∧
      scaleSetting v (Quality.scaleOf quality) floor ≤ 2 ^ 62 := by
  have hle := Quality.natAbs_truncToInt64_ofInt_mul_scaleOf_le v hv quality
  rw [scaleSetting, maxInt_eq_max]
  omega

/-- A setting below `2^61` scaled for fast, balanced and best quality and raised to a floor that
is not negative grows with the quality. -/
theorem scaleSetting_follows_quality (v : ℤ) (hv : v.natAbs < 2 ^ 61) (floor : ℤ)
    (hf : 0 ≤ floor) :
    scaleSetting v (Quality.scaleOf "fast") floor ≤
        scaleSetting v (Quality.scaleOf "balanced") floor ∧
      scaleSetting v (Quality.scaleOf "balanced") floor ≤
        scaleSetting v (Quality.scaleOf "best") floor := by
  have hhalf := tdiv_two_spec (truncToInt64 (Float.ofInt v))
  simp only [scaleSetting, maxInt_eq_max, Quality.scaleOf_fast, Quality.scaleOf_balanced,
    Quality.scaleOf_best, truncToInt64_ofInt_mul_half v hv, truncToInt64_ofInt_mul_one v hv,
    truncToInt64_ofInt_mul_two v hv]
  omega

namespace StrategyConfig

/-! ### What a chosen strategy holds -/

section Select

variable (t : StrategyTable) (p : HardwareProfile) (quality : String)

@[simp] theorem select_clusterWorkers :
    (select t p quality).clusterWorkers = clampWorkers (t.get p.tier).workers p.cpuCores := rfl

@[simp] theorem select_solverWorkers :
    (select t p quality).solverWorkers = clampWorkers (t.get p.tier).workers p.cpuCores := rfl

@[simp] theorem select_solverTimeout :
    (select t p quality).solverTimeout =
      truncToInt64 (Float.ofInt (t.get p.tier).solverTimeout * Quality.scaleOf quality) := rfl

@[simp] theorem select_solverNodeBudget :
    (select t p quality).solverNodeBudget =
      scaleSetting (t.get p.tier).nodeBudget (Quality.scaleOf quality) 1000 := rfl

theorem select_populationSize :
    (select t p quality).populationSize =
      let population := scaleSetting (t.get p.tier).populationSize (Quality.scaleOf quality) 4
      if p.hasGpu then wrapInt64 (population + population.tdiv 2) else population := rfl

@[simp] theorem select_generations :
    (select t p quality).generations =
      scaleSetting (t.get p.tier).generations (Quality.scaleOf quality) 2 := rfl

@[simp] theorem select_plateauGenerations :
    (select t p quality).plateauGenerations =
      scaleSetting ((t.get p.tier).generations.tdiv 4) 1 2 := rfl

@[simp] theorem select_repairIterations :
    (select t p quality).repairIterations =
      scaleSetting (t.get p.tier).repairIterations (Quality.scaleOf quality) 10 := rfl

end Select

/-- `a` asks for no more effort than `b` on each floored count that the quality scales. -/
structure EffortLE (a b : StrategyConfig) : Prop where
  solverNodeBudget : a.solverNodeBudget ≤ b.solverNodeBudget
  populationSize : a.populationSize ≤ b.populationSize
  generations : a.generations ≤ b.generations
  repairIterations : a.repairIterations ≤ b.repairIterations

/-- The bounds every chosen strategy keeps: worker counts between one and the machine's cores,
and a population of at least four. -/
structure Sane (p : HardwareProfile) (c : StrategyConfig) : Prop where
  clusterWorkers : 1 ≤ c.clusterWorkers ∧ c.clusterWorkers ≤ max 1 p.cpuCores
  solverWorkers : 1 ≤ c.solverWorkers ∧ c.solverWorkers ≤ max 1 p.cpuCores
  populationSize : 4 ≤ c.populationSize

/-- `d` keeps each count of the genetic and repair phases of `c`, or less, and at least one. -/
structure Shrinks (d c : StrategyConfig) : Prop where
  populationSize : 1 ≤ d.populationSize ∧ d.populationSize ≤ c.populationSize
  generations : 1 ≤ d.generations ∧ d.generations ≤ c.generations
  plateauGenerations : 1 ≤ d.plateauGenerations ∧ d.plateauGenerations ≤ c.plateauGenerations
  repairIterations : 1 ≤ d.repairIterations ∧ d.repairIterations ≤ c.repairIterations

variable {t : StrategyTable} {p : HardwareProfile}

/-- The population of a tier below `2^61`: the scaled count at its floor of four, with half again
on a machine with a GPU, which stays within 64-bit integers. -/
theorem select_populationSize_eq (hs : (t.get p.tier).populationSize.natAbs < 2 ^ 61)
    (quality : String) :
    (select t p quality).populationSize =
      let population := scaleSetting (t.get p.tier).populationSize (Quality.scaleOf quality) 4
      if p.hasGpu then population + population / 2 else population := by
  have hrange := scaleSetting_mem _ hs quality 4 (by decide)
  rw [select_populationSize]
  split_ifs
  · exact wrapInt64_add_tdiv_two (by omega) hrange.2
  · rfl

/-- A chosen strategy keeps its worker counts within the cores, and its population at four or
more while the tier's population is below `2^61`. -/
theorem select_sane (hs : (t.get p.tier).populationSize.natAbs < 2 ^ 61) (quality : String) :
    (select t p quality).Sane p := by
  have hfloor := floor_le_scaleSetting (t.get p.tier).populationSize (Quality.scaleOf quality) 4
  refine ⟨?_, ?_, ?_⟩
  · simpa using clampWorkers_mem (t.get p.tier).workers p.cpuCores
  · simpa using clampWorkers_mem (t.get p.tier).workers p.cpuCores
  · rw [select_populationSize_eq hs]
    dsimp only
    -- half again of a population of four or more is more
    split_ifs <;> omega

/-- Halving a count at its floor of one or more, and keeping it at that floor, gives at least
one and at most the count. -/
theorem max_tdiv_two_mem {x floor : ℤ} (h₁ : 1 ≤ floor) (h₂ : floor ≤ x) :
    1 ≤ maxInt (x.tdiv 2) floor ∧ maxInt (x.tdiv 2) floor ≤ x := by
  have hhalf := tdiv_two_spec x
  rw [maxInt_eq_max]
  omega

/-- Degrading a strategy whose population is at least two and whose other halved counts are
positive keeps each of them between one and its old value. -/
theorem degrade_shrinks {c : StrategyConfig} (hp : 2 ≤ c.populationSize)
    (hg : 1 ≤ c.generations) (hpl : 1 ≤ c.plateauGenerations) (hr : 1 ≤ c.repairIterations) :
    c.degrade.Shrinks c :=
  ⟨max_tdiv_two_mem (by decide) hp, max_tdiv_two_mem le_rfl hg, max_tdiv_two_mem le_rfl hpl,
    max_tdiv_two_mem le_rfl hr⟩

/-- Degrading any chosen strategy, while the tier's population is below `2^61`, shrinks it. -/
theorem degrade_select_shrinks (hs : (t.get p.tier).populationSize.natAbs < 2 ^ 61)
    (quality : String) : (select t p quality).degrade.Shrinks (select t p quality) := by
  have hpop := (select_sane hs quality).populationSize
  refine degrade_shrinks (by omega) ?_ ?_ ?_
  · exact le_trans (by decide) (floor_le_scaleSetting _ _ 2)
  · exact le_trans (by decide) (floor_le_scaleSetting _ _ 2)
  · exact le_trans (by decide) (floor_le_scaleSetting _ _ 10)

theorem select_populationSize_follows_quality
    (hs : (t.get p.tier).populationSize.natAbs < 2 ^ 61) :
    (select t p "fast").populationSize ≤ (select t p "balanced").populationSize ∧
      (select t p "balanced").populationSize ≤ (select t p "best").populationSize := by
  have hscaled := scaleSetting_follows_quality _ hs 4 (by decide)
  simp only [select_populationSize_eq hs]
  -- half again of a larger population is larger
  split_ifs <;> omega

/-- Fast quality asks for no more effort than balanced, and balanced no more than best, on a tier
whose settings are below `2^61`. -/
theorem select_effortLE (hs : (t.get p.tier).Scalable) :
    (select t p "fast").EffortLE (select t p "balanced") ∧
      (select t p "balanced").EffortLE (select t p "best") := by
  obtain ⟨hn₁, hn₂⟩ := scaleSetting_follows_quality _ hs.nodeBudget 1000 (by decide)
  obtain ⟨hp₁, hp₂⟩ := select_populationSize_follows_quality hs.populationSize
  obtain ⟨hg₁, hg₂⟩ := scaleSetting_follows_quality _ hs.generations 2 (by decide)
  obtain ⟨hr₁, hr₂⟩ := scaleSetting_follows_quality _ hs.repairIterations 10 (by decide)
  exact ⟨⟨hn₁, hp₁, hg₁, hr₁⟩, ⟨hn₂, hp₂, hg₂, hr₂⟩⟩

/-- The timeout follows the quality when it is not negative, and runs against it when it is. -/
theorem select_solverTimeout_order (hs : (t.get p.tier).solverTimeout.natAbs < 2 ^ 61) :
    (0 ≤ (t.get p.tier).solverTimeout →
      (select t p "fast").solverTimeout ≤ (select t p "balanced").solverTimeout ∧
        (select t p "balanced").solverTimeout ≤ (select t p "best").solverTimeout) ∧
    ((t.get p.tier).solverTimeout < 0 →
      (select t p "best").solverTimeout ≤ (select t p "balanced").solverTimeout ∧
        (select t p "balanced").solverTimeout ≤ (select t p "fast").solverTimeout) := by
  have hsign := truncToInt64_ofInt_nonneg_iff _ hs
  have hhalf := tdiv_two_spec (truncToInt64 (Float.ofInt (t.get p.tier).solverTimeout))
  simp only [select_solverTimeout, Quality.scaleOf_fast, Quality.scaleOf_balanced,
    Quality.scaleOf_best, truncToInt64_ofInt_mul_half _ hs, truncToInt64_ofInt_mul_one _ hs,
    truncToInt64_ofInt_mul_two _ hs]
  omega

/-- What the strategies chosen from a table for a machine keep across qualities: fast asks for
no more effort than balanced and balanced no more than best, the timeout follows the quality when
it is not negative and runs against it when it is, every strategy is within bounds, and degrading
one gives a greedy, degraded strategy that shrinks it. -/
structure FollowsQuality (t : StrategyTable) (p : HardwareProfile) : Prop where
  fast_le_balanced : (select t p "fast").EffortLE (select t p "balanced")
  balanced_le_best : (select t p "balanced").EffortLE (select t p "best")
  timeout_of_nonneg : 0 ≤ (t.get p.tier).solverTimeout →
    (select t p "fast").solverTimeout ≤ (select t p "balanced").solverTimeout ∧
      (select t p "balanced").solverTimeout ≤ (select t p "best").solverTimeout
  timeout_of_neg : (t.get p.tier).solverTimeout < 0 →
    (select t p "best").solverTimeout ≤ (select t p "balanced").solverTimeout ∧
      (select t p "balanced").solverTimeout ≤ (select t p "fast").solverTimeout
  sane : ∀ quality, (select t p quality).Sane p
  degrade : ∀ quality, (select t p quality).degrade.solverMode = "greedy" ∧
    (select t p quality).degrade.degraded = true ∧
    (select t p quality).degrade.Shrinks (select t p quality)

/-- Every table, on a machine whose tier's scaled settings are below `2^61`, chooses strategies
that follow the quality. -/
theorem select_follows_quality (t : StrategyTable) (p : HardwareProfile)
    (hs : (t.get p.tier).Scalable) : FollowsQuality t p where
  fast_le_balanced := (select_effortLE hs).1
  balanced_le_best := (select_effortLE hs).2
  timeout_of_nonneg := (select_solverTimeout_order hs.solverTimeout).1
  timeout_of_neg := (select_solverTimeout_order hs.solverTimeout).2
  sane := select_sane hs.populationSize
  degrade quality :=
    ⟨degrade_solverMode _, degrade_degraded _, degrade_select_shrinks hs.populationSize quality⟩

/-- The built-in table on a machine with four cores, a GPU and little memory. -/
theorem select_follows_quality_builtinGpu :
    (StrategyTable.builtin.get ({ cpuCores := 4, hasGpu := true } : HardwareProfile).tier).Scalable ∧
      FollowsQuality StrategyTable.builtin { cpuCores := 4, hasGpu := true } :=
  ⟨by decide, select_follows_quality _ _ (by decide)⟩

/-- A table document that decodes, with a property of its table settled by evaluation. -/
theorem exists_ofYaml_of_check {text : String} {P : StrategyTable → Prop} [DecidablePred P]
    (h : (match StrategyTable.ofYaml text with
      | .ok t => decide (P t)
      | .error _ => false) = true) :
    ∃ t, StrategyTable.ofYaml text = .ok t ∧ P t := by
  split at h
  · next t ht => exact ⟨t, ht, of_decide_eq_true h⟩
  · exact absurd h Bool.false_ne_true

/-- Outside those bounds the order fails. A document may give a tier a negative timeout, and fast
quality halves it toward zero, above the balanced timeout. A population of `5·10^18` doubled for
best quality leaves 64-bit integers, truncates to the smallest one and falls to the floor of four,
below balanced. -/
theorem select_quality_order_fails :
    (∃ t, StrategyTable.ofYaml "tiers:\n  very_low:\n    solver_timeout: -2ns\n" = .ok t ∧
      (select t { cpuCores := 1 } "balanced").solverTimeout <
        (select t { cpuCores := 1 } "fast").solverTimeout) ∧
    (∃ t, StrategyTable.ofYaml
        "tiers:\n  very_low:\n    population_size: 5000000000000000000\n" = .ok t ∧
      (select t { cpuCores := 1 } "best").populationSize <
        (select t { cpuCores := 1 } "balanced").populationSize) :=
  ⟨exists_ofYaml_of_check (by decide +kernel), exists_ofYaml_of_check (by decide +kernel)⟩

end StrategyConfig

end Timetabling
