import Mathlib
import Timetabling.Proofs.Number.Rounding
import Timetabling.Proofs.Pipeline.Outcome

/-! # Progress that never goes back

Each stage of a run reports progress within its band of percentages: it starts at the band's
lower end, and refinement and repair report, generation by generation and iteration by iteration,
the share of their work done, `gen / total`, placed within the band. Doubles round every step of
that computation, but rounding to nearest is monotone, so the percentages a stage reports never
decrease and stay within its band (`Stage.Band.percent_mono`), as long as the counts fit the
64-bit integers they are (`StrategyConfig.CountsFit`), which every strategy chosen from a table
does (`StrategyConfig.select_countsFit`).

`RisesFrom b more b'` says that the events `more`, heard after events whose percentages rise up
to `b`, leave them rising up to `b'`. The work of a stage makes its events rise from the stage's
start to its end (`RunStep.Paces`): refinement and repair through their notes
(`RunStep.refineStage_paces`, `RunStep.repairStage_paces`), the other stages by reporting
nothing. -/

namespace Timetabling

open Float.Model

namespace StrategyConfig

/-- The counts of a strategy fit a signed 64-bit integer, the width they have in the service. -/
def CountsFit (s : StrategyConfig) : Prop :=
  s.generations < 2 ^ 63 ∧ s.repairIterations < 2 ^ 63

theorem maxInt_tdiv_two_lt {g : ℤ} (h : g < 2 ^ 63) : maxInt (g.tdiv 2) 1 < 2 ^ 63 := by
  -- halving toward zero never moves away from zero
  have hhalf : g.tdiv 2 ≤ max g 1 := by
    rw [Int.tdiv_eq_ediv]
    split
    · omega
    · rw [show Int.sign 2 = 1 from rfl]
      omega
  unfold maxInt
  split <;> omega

theorem CountsFit.degrade {s : StrategyConfig} (h : s.CountsFit) : s.degrade.CountsFit :=
  ⟨maxInt_tdiv_two_lt h.1, maxInt_tdiv_two_lt h.2⟩

theorem CountsFit.iterate_degrade {s : StrategyConfig} (h : s.CountsFit) (n : ℕ) :
    (StrategyConfig.degrade^[n] s).CountsFit := by
  induction n with
  | zero => exact h
  | succ n ih =>
    rw [Function.iterate_succ_apply']
    exact ih.degrade

theorem truncToInt64_lt (x : Float) : truncToInt64 x < 2 ^ 63 := by
  have h63 : Int.pow 2 63 = 2 ^ 63 := rfl
  -- an integer part out of range is replaced by the least 64-bit integer
  have hrange : ∀ v : ℤ,
      (if v < -(Int.pow 2 63) ∨ v ≥ Int.pow 2 63 then -(Int.pow 2 63) else v) < 2 ^ 63 := by
    intro v
    rw [h63]
    split <;> omega
  unfold truncToInt64
  split
  · rw [h63]
    omega
  · exact hrange _

theorem scaleSetting_lt (value : ℤ) (factor : Float) {floor : ℤ} (h : floor < 2 ^ 63) :
    scaleSetting value factor floor < 2 ^ 63 := by
  have := truncToInt64_lt (Float.ofInt value * factor)
  unfold scaleSetting maxInt
  split <;> omega

/-- Every strategy chosen from a table has counts that fit. -/
theorem select_countsFit (table : StrategyTable) (p : HardwareProfile) (quality : String) :
    (select table p quality).CountsFit :=
  ⟨scaleSetting_lt _ _ (by norm_num), scaleSetting_lt _ _ (by norm_num)⟩

end StrategyConfig

/-- A context settled from one whose counts fit has counts that fit: settling only degrades the
strategy. -/
theorem RunContext.Settled.countsFit {σ β : Type} {c₀ c : RunContext σ β} (h : c₀.Settled c)
    (hfit : c₀.strategy.CountsFit) : c.strategy.CountsFit := by
  obtain ⟨n, hn⟩ := h.strategy
  exact hn ▸ hfit.iterate_degrade n

namespace Stage

/-- The percentage a stage starts at. -/
def startPercent (s : Stage) : Float := s.percentWithin 0

/-- The percentage a stage ends at. -/
def endPercent (s : Stage) : Float := s.percentWithin 1

theorem startPercent_le_endPercent (s : Stage) : s.startPercent ≤ s.endPercent := by
  cases s <;> decide +kernel

theorem startPercent_le_self (s : Stage) : s.startPercent ≤ s.startPercent := by
  cases s <;> decide +kernel

theorem endPercent_le_self (s : Stage) : s.endPercent ≤ s.endPercent := by
  cases s <;> decide +kernel

/-- Each stage starts where the one before it ends. -/
theorem endPercent_le_startPercent {p s : Stage} (h : p.next? = some s) :
    p.endPercent ≤ s.startPercent := by
  cases p <;> simp [next?] at h <;> subst h <;> decide +kernel

/-- A stage whose band runs from the whole number `lo` to `lo + d`, exact doubles both, with its
width computed exactly. -/
structure Band (s : Stage) (lo d : ℕ) : Prop where
  band : s.band? = some (Float.ofNat lo, Float.ofNat (lo + d))
  width : Float.ofNat (lo + d) - Float.ofNat lo = Float.ofNat d
  lo_pos : 0 < lo
  d_pos : 0 < d
  small : lo + d < 2 ^ 53
  start_le : s.startPercent ≤ Float.ofNat lo
  le_end : Float.ofNat (lo + d) ≤ s.endPercent

theorem band_refining : Stage.refining.Band 55 25 :=
  ⟨rfl, Float.toBits_inj.mp (by decide +kernel), by norm_num, by norm_num, by norm_num,
    by decide +kernel, by decide +kernel⟩

theorem band_repairing : Stage.repairing.Band 80 15 :=
  ⟨rfl, Float.toBits_inj.mp (by decide +kernel), by norm_num, by norm_num, by norm_num,
    by decide +kernel, by decide +kernel⟩

end Stage

/-! ### Percentages within a band -/

/-- The value the double `a / T` stores, for whole numbers `a` and `T` converted to doubles. -/
def ratioValue (a T : ℕ) : ℚ := nearest (nearest a / nearest T)

/-- The value the percentage at the ratio of `a` to `T` stores, within a band from `lo` of
width `d`. -/
def bandValue (lo d a T : ℕ) : ℚ := nearest (lo + nearest (d * ratioValue a T))

section Values

variable {lo d a b T : ℕ}

theorem nearest_two_pow_63 : nearest ((2 : ℚ) ^ 63) = 2 ^ 63 := by
  have := nearest_normal (m := 2 ^ 52) (e := 11) le_rfl (by norm_num) (by norm_num)
  norm_num at this
  norm_num [this]

theorem nearest_two_pow_neg_63 : nearest ((2 : ℚ) ^ (-63 : ℤ)) = 2 ^ (-63 : ℤ) := by
  have := nearest_normal (m := 2 ^ 52) (e := -115) le_rfl (by norm_num) (by norm_num)
  rw [show ((2 ^ 52 : ℕ) : ℚ) * 2 ^ (-115 : ℤ) = 2 ^ (-63 : ℤ) by
    rw [Nat.cast_pow, Nat.cast_ofNat, ← zpow_natCast, ← zpow_add₀ two_ne_zero]; norm_num] at this
  exact this

theorem one_le_nearest (ha : 0 < a) : 1 ≤ nearest a := by
  have h1 : nearest ((1 : ℕ) : ℚ) = 1 := by rw [nearest_natCast one_pos (by norm_num)]; rfl
  calc (1 : ℚ) = nearest ((1 : ℕ) : ℚ) := h1.symm
    _ ≤ nearest a := nearest_mono (by norm_num) (by exact_mod_cast ha)

theorem nearest_le_two_pow_63 (hT : T ≤ 2 ^ 63) : nearest T ≤ 2 ^ 63 := by
  rcases Nat.eq_zero_or_pos T with rfl | hT0
  · simp [nearest, nearestEven]
  rw [← nearest_two_pow_63]
  exact nearest_mono (by exact_mod_cast hT0) (by exact_mod_cast hT)

/-- The quotient of the doubles of a share of at most the whole, of a whole below `2^63`, is at
least `2^-63` and at most one. -/
theorem quotient_mem (ha : 0 < a) (haT : a ≤ T) (hT : T < 2 ^ 63) :
    2 ^ (-63 : ℤ) ≤ nearest a / nearest T ∧ nearest a / nearest T ≤ 1 := by
  have hA := one_le_nearest ha
  have hTpos := one_le_nearest (ha.trans_le haT)
  have hT' := nearest_le_two_pow_63 hT.le
  have hAT : nearest a ≤ nearest T := nearest_mono (by exact_mod_cast ha) (by exact_mod_cast haT)
  constructor
  · have h63 : (2 : ℚ) ^ (-63 : ℤ) = 1 / 2 ^ 63 := by rw [zpow_neg, one_div]; norm_num
    rw [h63, div_le_div_iff₀ (by positivity) (by linarith)]
    linarith
  · exact (div_le_one (by linarith)).2 hAT

theorem ratioValue_mem (ha : 0 < a) (haT : a ≤ T) (hT : T < 2 ^ 63) :
    2 ^ (-63 : ℤ) ≤ ratioValue a T ∧ ratioValue a T ≤ 1 := by
  obtain ⟨h₀, h₁⟩ := quotient_mem ha haT hT
  constructor
  · rw [ratioValue, ← nearest_two_pow_neg_63]
    exact nearest_mono (by positivity) h₀
  · calc ratioValue a T ≤ nearest 1 := nearest_mono ((zpow_pos two_pos _).trans_le h₀) h₁
      _ = 1 := by exact_mod_cast nearest_natCast one_pos (by norm_num)

theorem ratioValue_mono (ha : 0 < a) (hab : a ≤ b) (hT : 0 < T) :
    ratioValue a T ≤ ratioValue b T := by
  have hA := one_le_nearest ha
  have hTpos := one_le_nearest hT
  apply nearest_mono (by positivity)
  gcongr
  exact nearest_mono (by exact_mod_cast ha) (by exact_mod_cast hab)

/-- The percentage at a share stays within its band. -/
theorem bandValue_mem (hlo : 0 < lo) (hd : 0 < d) (hsmall : lo + d < 2 ^ 53) (ha : 0 < a)
    (haT : a ≤ T) (hT : T < 2 ^ 63) : (lo : ℚ) ≤ bandValue lo d a T ∧ bandValue lo d a T ≤ lo + d := by
  obtain ⟨hr₀, hr₁⟩ := ratioValue_mem ha haT hT
  have hr : 0 < ratioValue a T := lt_of_lt_of_le (by positivity) hr₀
  have hdr : nearest (d * ratioValue a T) ≤ d := by
    calc nearest (d * ratioValue a T) ≤ nearest d :=
          nearest_mono (by positivity) (mul_le_of_le_one_right (by positivity) hr₁)
      _ = d := nearest_natCast hd (by omega)
  have hdr₀ := nearest_nonneg (d * ratioValue a T)
  constructor
  · calc (lo : ℚ) = nearest lo := (nearest_natCast hlo (by omega)).symm
      _ ≤ bandValue lo d a T := nearest_mono (by positivity) (by linarith)
  · calc bandValue lo d a T ≤ nearest ((lo + d : ℕ) : ℚ) :=
          nearest_mono (by positivity) (by push_cast; linarith)
      _ = lo + d := by rw [nearest_natCast (by omega) hsmall]; push_cast; rfl

theorem bandValue_mono (hlo : 0 < lo) (hd : 0 < d) (ha : 0 < a) (hab : a ≤ b) (hbT : b ≤ T)
    (hT : T < 2 ^ 63) : bandValue lo d a T ≤ bandValue lo d b T := by
  have hr : 0 < ratioValue a T :=
    lt_of_lt_of_le (by positivity) (ratioValue_mem ha (hab.trans hbT) hT).1
  have hdr₀ := nearest_nonneg (d * ratioValue a T)
  apply nearest_mono (add_pos_of_pos_of_nonneg (by exact_mod_cast hlo) hdr₀)
  gcongr
  exact nearest_mono (by positivity) (by gcongr; exact ratioValue_mono ha hab (by omega))

end Values

theorem stores_ofNat_small {n : ℕ} (h0 : 0 < n) (hn : n < 2 ^ 53) : (Float.ofNat n).Stores n := by
  have h := Float.stores_ofNat h0 (by omega)
  rwa [nearest_natCast h0 hn] at h

/-- The share of a whole below `2^63`, as a quotient of doubles, stores its ratio value. -/
theorem stores_ofNat_div_ofNat {a T : ℕ} (ha : 0 < a) (haT : a ≤ T) (hT : T < 2 ^ 63) :
    (Float.ofNat a / Float.ofNat T).Stores (ratioValue a T) := by
  obtain ⟨hq₀, hq₁⟩ := quotient_mem ha haT hT
  exact (Float.stores_ofNat ha (by omega)).div (Float.stores_ofNat (ha.trans_le haT) (by omega))
    ((zpow_le_zpow_right₀ (by norm_num) (by norm_num)).trans hq₀) (hq₁.trans (by norm_num))

namespace Stage.Band

variable {s : Stage} {lo d : ℕ}

/-- The percentage at the share `a` of `T`, for `0 < a ≤ T < 2^63`, stores its band value. -/
theorem percent_stores (hs : s.Band lo d) {a : ℕ} {T : ℤ} (ha : 0 < a) (haT : (a : ℤ) ≤ T)
    (hT : T < 2 ^ 63) :
    (s.percentWithin (Float.ofNat a / Float.ofInt T)).Stores (bandValue lo d a T.toNat) := by
  obtain ⟨n, rfl⟩ : ∃ n : ℕ, T = n := ⟨T.toNat, by omega⟩
  rw [Int.toNat_natCast, show Float.ofInt n = Float.ofNat n from rfl]
  have haT' : a ≤ n := by omega
  have hn : n < 2 ^ 63 := by omega
  have hsmall := hs.small
  obtain ⟨hr₀, hr₁⟩ := ratioValue_mem ha haT' hn
  have hr : 0 < ratioValue a n := (zpow_pos two_pos _).trans_le hr₀
  have hratio := stores_ofNat_div_ofNat ha haT' hn
  -- the product of the share by the width and its sum with the lower end, each rounded
  have hdr : (d : ℚ) * ratioValue a n ≤ d := mul_le_of_le_one_right (by positivity) hr₁
  have hproduct := (stores_ofNat_small hs.d_pos (by omega)).mul hratio
    (calc (2 : ℚ) ^ (-1022 : ℤ) ≤ 2 ^ (-63 : ℤ) := zpow_le_zpow_right₀ (by norm_num) (by norm_num)
      _ ≤ ratioValue a n := hr₀
      _ ≤ d * ratioValue a n := le_mul_of_one_le_left hr.le (by exact_mod_cast hs.d_pos))
    (hdr.trans (by exact_mod_cast (by omega : d ≤ 2 ^ 64)))
  have hnd : nearest (d * ratioValue a n) ≤ d :=
    (nearest_mono (mul_pos (by exact_mod_cast hs.d_pos) hr) hdr).trans (nearest_natCast hs.d_pos (by omega)).le
  have hsum := (stores_ofNat_small hs.lo_pos (by omega)).add hproduct
    (by have : ((lo + d : ℕ) : ℚ) ≤ 2 ^ 64 := by exact_mod_cast (by omega : lo + d ≤ 2 ^ 64)
        push_cast at this
        linarith)
  -- the share is a number within `[0, 1]`, so the clamp leaves it
  have hnot : ¬ Float.ofNat a / Float.ofNat n > 1 := fun h ↦ Float.lt_irrefl _
    (Float.lt_of_lt_of_le h ((hratio.le_iff (stores_ofNat_small one_pos (by norm_num))).2 (by
      exact_mod_cast hr₁)))
  unfold Stage.percentWithin
  rw [hs.band]
  dsimp only
  rw [if_neg hratio.not_lt_zero, if_neg hnot, hs.width]
  exact hsum

variable {a b : ℕ} {T : ℤ}

/-- Percentages at a growing share of one whole never decrease. -/
theorem percent_mono (hs : s.Band lo d) (ha : 0 < a) (hab : a ≤ b) (hbT : (b : ℤ) ≤ T)
    (hT : T < 2 ^ 63) :
    s.percentWithin (Float.ofNat a / Float.ofInt T) ≤
      s.percentWithin (Float.ofNat b / Float.ofInt T) :=
  ((hs.percent_stores ha (by omega) hT).le_iff (hs.percent_stores (ha.trans_le hab) hbT hT)).2
    (bandValue_mono hs.lo_pos hs.d_pos ha hab (by omega) (by omega))

theorem percent_le_self (hs : s.Band lo d) (ha : 0 < a) (haT : (a : ℤ) ≤ T) (hT : T < 2 ^ 63) :
    s.percentWithin (Float.ofNat a / Float.ofInt T) ≤
      s.percentWithin (Float.ofNat a / Float.ofInt T) :=
  hs.percent_mono ha le_rfl haT hT

/-- The percentage at a share is past the start of its stage. -/
theorem startPercent_le_percent (hs : s.Band lo d) (ha : 0 < a) (haT : (a : ℤ) ≤ T)
    (hT : T < 2 ^ 63) : s.startPercent ≤ s.percentWithin (Float.ofNat a / Float.ofInt T) := by
  have hsmall := hs.small
  have hmem := bandValue_mem hs.lo_pos hs.d_pos hsmall ha (by omega : a ≤ T.toNat) (by omega)
  exact Float.le_trans hs.start_le
    (((stores_ofNat_small hs.lo_pos (by omega)).le_iff (hs.percent_stores ha haT hT)).2 hmem.1)

/-- The percentage at a share is short of the end of its stage. -/
theorem percent_le_endPercent (hs : s.Band lo d) (ha : 0 < a) (haT : (a : ℤ) ≤ T)
    (hT : T < 2 ^ 63) : s.percentWithin (Float.ofNat a / Float.ofInt T) ≤ s.endPercent := by
  have hsmall := hs.small
  have hmem := bandValue_mem hs.lo_pos hs.d_pos hsmall ha (by omega : a ≤ T.toNat) (by omega)
  refine Float.le_trans (((hs.percent_stores ha haT hT).le_iff
    (stores_ofNat_small (Nat.add_pos_left hs.lo_pos d) hsmall)).2 ?_) hs.le_end
  push_cast
  exact hmem.2

end Stage.Band

/-! ### Events whose percentages rise -/

/-- The percentages of the events never decrease, and the last is at most `b`. -/
def Rising (evs : List ProgressEvent) (b : Float) : Prop :=
  (evs.map (·.percent)).IsChain (· ≤ ·) ∧ ∀ e ∈ evs.getLast?, e.percent ≤ b

theorem rising_nil (b : Float) : Rising [] b :=
  ⟨.nil, by simp⟩

namespace Rising

variable {evs : List ProgressEvent} {b b' : Float} {e : ProgressEvent}

/-- An event past the bound the events so far rise to does not decrease their percentages. -/
theorem isChain_snoc (h : Rising evs b) (h₁ : b ≤ e.percent) :
    ((evs ++ [e]).map (·.percent)).IsChain (· ≤ ·) := by
  obtain ⟨hchain, hlast⟩ := h
  rw [List.map_append, List.map_singleton]
  refine hchain.append (List.isChain_singleton _) fun x hx y hy ↦ ?_
  rw [List.getLast?_map] at hx
  obtain ⟨l, hl, rfl⟩ := Option.mem_map.mp hx
  rw [List.head?_singleton, Option.mem_some_iff] at hy
  exact hy ▸ Float.le_trans (hlast l hl) h₁

/-- An event past the bound the events so far rise to keeps them rising, up to any bound past
it. -/
theorem snoc (h : Rising evs b) (h₁ : b ≤ e.percent) (h₂ : e.percent ≤ b') :
    Rising (evs ++ [e]) b' :=
  ⟨h.isChain_snoc h₁, by simpa using h₂⟩

end Rising

/-- The events `more`, heard after events rising up to `b`, leave them rising up to `b'`. -/
def RisesFrom (b : Float) (more : List ProgressEvent) (b' : Float) : Prop :=
  ∀ evs, Rising evs b → Rising (evs ++ more) b'

namespace RisesFrom

variable {b b' b'' : Float} {more more' : List ProgressEvent}

theorem nil (h : b ≤ b') : RisesFrom b [] b' := by
  rintro evs ⟨hchain, hlast⟩
  rw [List.append_nil]
  exact ⟨hchain, fun e he ↦ Float.le_trans (hlast e he) h⟩

theorem single {e : ProgressEvent} (h₁ : b ≤ e.percent) (h₂ : e.percent ≤ b') :
    RisesFrom b [e] b' :=
  fun _ hevs ↦ hevs.snoc h₁ h₂

theorem append (h : RisesFrom b more b') (h' : RisesFrom b' more' b'') :
    RisesFrom b (more ++ more') b'' := fun evs hevs ↦ by
  rw [← List.append_assoc]
  exact h' _ (h evs hevs)

end RisesFrom

namespace Observer

variable {σ : Type}

/-- Since `o`, the observer heard events of the stage `s` only; when `fit` holds, they rise from
the stage's start to its end, and to the percentage at every count past `k` up to `T`. -/
def NotedTo (s : Stage) (fit : Prop) (T : ℤ) (k : ℕ) (o o' : Observer σ) : Prop :=
  ∃ more, (∀ e ∈ more, e.stage = s) ∧ o' = o.hear more ∧
    (fit → RisesFrom s.startPercent more s.endPercent ∧
      ∀ a : ℕ, k < a → (a : ℤ) ≤ T →
        RisesFrom s.startPercent more (s.percentWithin (Float.ofNat a / Float.ofInt T)))

namespace NotedTo

variable {s : Stage} {lo d : ℕ} {fit : Prop} {T : ℤ} {k : ℕ} {o o' : Observer σ}

theorem start (hs : s.Band lo d) (hT : fit → T < 2 ^ 63) (o : Observer σ) :
    NotedTo s fit T 0 o o :=
  ⟨[], by simp, rfl, fun hfit ↦ ⟨.nil s.startPercent_le_endPercent, fun a ha haT ↦
    .nil (hs.startPercent_le_percent ha haT (hT hfit))⟩⟩

/-- A count that reports nothing keeps what is still to come. -/
theorem skip (h : NotedTo s fit T k o o') : NotedTo s fit T (k + 1) o o' := by
  obtain ⟨more, hstage, rfl, hrise⟩ := h
  exact ⟨more, hstage, rfl, fun hfit ↦ ⟨(hrise hfit).1, fun a ha haT ↦
    (hrise hfit).2 a (by omega) haT⟩⟩

/-- A count that reports its percentage reports the next one still to come. -/
theorem deliver (h : NotedTo s fit T k o o') (hs : s.Band lo d) (hT : fit → T < 2 ^ 63)
    (hk : (k : ℤ) < T) {e : ProgressEvent} (hes : e.stage = s)
    (hep : e.percent = s.percentWithin (Float.ofNat (k + 1) / Float.ofInt T)) :
    NotedTo s fit T (k + 1) o (o'.deliver e) := by
  obtain ⟨more, hstage, rfl, hrise⟩ := h
  refine ⟨more ++ [e], ?_, by rw [hear_append, hear_singleton], fun hfit ↦ ?_⟩
  · intro e' he'
    rcases List.mem_append.mp he' with he' | he'
    · exact hstage e' he'
    · exact (List.mem_singleton.mp he') ▸ hes
  have hnext := (hrise hfit).2 (k + 1) (by omega) (by omega)
  have hself : s.percentWithin (Float.ofNat (k + 1) / Float.ofInt T) ≤ e.percent := by
    rw [hep]
    exact hs.percent_le_self (by omega) (by omega) (hT hfit)
  refine ⟨hnext.append (.single hself ?_), fun a ha haT ↦ hnext.append (.single hself ?_)⟩
  · rw [hep]
    exact hs.percent_le_endPercent (by omega) (by omega) (hT hfit)
  · rw [hep]
    exact hs.percent_mono (by omega) (by omega) haT (hT hfit)

end NotedTo

end Observer

namespace RunStep

open RunContext

variable {σ β : Type} {s : Stage} {c₀ c c' : RunContext σ β}

/-- What the work of stage `s` does from `c₀` to `c`: it keeps the stage, the counts fit still
when they did, and the observer hears events of the stage only, which, when the counts fit, rise
from the stage's start to its end. -/
structure Paces (s : Stage) (c₀ c : RunContext σ β) : Prop where
  stage : c.stage = c₀.stage
  fits : c₀.strategy.CountsFit → c.strategy.CountsFit
  heard : ∃ more, (∀ e ∈ more, e.stage = s) ∧ c.observer = c₀.observer.hear more ∧
    (c₀.strategy.CountsFit → RisesFrom s.startPercent more s.endPercent)

namespace Paces

/-- A step that keeps the stage, the strategy and the observer. -/
theorem step (h : Paces s c₀ c) (hs : c'.stage = c.stage) (hf : c'.strategy = c.strategy)
    (ho : c'.observer = c.observer) : Paces s c₀ c' :=
  ⟨hs.trans h.stage, hf ▸ h.fits, ho ▸ h.heard⟩

end Paces

/-- A step that reports nothing paces every stage. -/
theorem paces_of_silent (h : Silent c₀ c) : Paces s c₀ c :=
  ⟨h.settled.stage, h.settled.countsFit, [], by simp, by rw [h.observer]; rfl,
    fun _ ↦ .nil s.startPercent_le_endPercent⟩

/-- What the notes of a stage's work keep of `c₀` after `k` counts of `T`. -/
def Noted (s : Stage) (T : ℤ) (c₀ : RunContext σ β) (k : ℕ) (c : RunContext σ β) : Prop :=
  c₀.Settled c ∧ Observer.NotedTo s c₀.strategy.CountsFit T k c₀.observer c.observer

theorem Noted.paces {T : ℤ} {k : ℕ} (h : Noted s T c₀ k c) : Paces s c₀ c := by
  obtain ⟨hset, more, hstage, hobs, hrise⟩ := h
  exact ⟨hset.stage, hset.countsFit, more, hstage, hobs, fun hfit ↦ (hrise hfit).1⟩

/-- A refinement note keeps the notes rising. -/
theorem refineNote_noted {T : ℤ} (hT : c₀.strategy.CountsFit → T < 2 ^ 63) (every : ℕ)
    {gen : ℕ} (hgen : (gen : ℤ) < T) (best : Fitness) (h : Noted .refining T c₀ gen c) :
    Noted .refining T c₀ (gen + 1) (refineNote every c (gen + 1) T best) := by
  refine ⟨h.1.trans (refineNote_hears every c (gen + 1) T best).settled, ?_⟩
  unfold refineNote
  split
  · exact h.2.skip
  · exact h.2.deliver Stage.band_refining hT hgen rfl rfl

/-- A repair note keeps the notes rising. -/
theorem repairNote_noted {T : ℤ} (hT : c₀.strategy.CountsFit → T < 2 ^ 63) (every : ℕ)
    {it : ℕ} (hit : (it : ℤ) < T) (remaining : ℕ) (h : Noted .repairing T c₀ it c) :
    Noted .repairing T c₀ (it + 1) (repairNote every c (it + 1) T remaining) := by
  refine ⟨h.1.trans (repairNote_hears every c (it + 1) T remaining).settled, ?_⟩
  unfold repairNote
  split
  · exact h.2.skip
  · exact h.2.deliver Stage.band_repairing hT hit rfl rfl

/-- Refinement reports refining progress that rises from the start of refining to its end. -/
theorem refineStage_paces (c₀ : RunContext σ β) :
    Triple (· = c₀) refineStage (fun _ ↦ Paces .refining c₀) (fun _ ↦ Paces .refining c₀) := by
  unfold refineStage
  refine Triple.get_bind fun c₁ hc₁ ↦ ?_
  subst hc₁
  dsimp only
  refine Triple.ite_of (fun _ ↦ Triple.pure_of _ fun _ h ↦ h ▸ paces_of_silent (.refl _))
    fun _ ↦ ?_
  generalize hcfg : RefineConfig.mk _ _ _ _ _ _ _ = cfg
  have hT : c₁.strategy.CountsFit → cfg.generations < 2 ^ 63 := fun hfit ↦ by
    rw [← hcfg]
    exact hfit.1
  -- the watch hands back a context whose notes rose from the start of refining
  obtain ⟨gen, c₂, hw, hc₂⟩ := Timetable.refine_watch_from (I := Noted .refining cfg.generations c₁)
    (c₁.timetable.getD (Timetable.empty c₁.catalog)) c₁.domain cfg
    ⟨c₁, refineNote c₁.config.every, fun c ↦ c.observer.halted⟩
    (fun c _ best hgen h ↦ refineNote_noted hT _ hgen best h)
    ⟨.refl c₁, .start Stage.band_refining hT _⟩
  have hpaces := hc₂.paces
  split <;> rename_i heq <;> rw [heq] at hw <;> cases hw
  · exact Triple.bind (Triple.set_of (Q := fun _ ↦ Paces .refining c₁) fun _ _ ↦ hpaces) fun _ ↦
      Triple.throw_of _ fun _ h ↦ h
  · exact Triple.bind (Triple.set_of (Q := fun _ ↦ Paces .refining c₁) fun _ _ ↦
      hpaces.step rfl rfl rfl) fun _ ↦ Triple.pure_of _ fun _ h ↦ h

/-- Repair reports repairing progress that rises from the start of repairing to its end. -/
theorem repairStage_paces (c₀ : RunContext σ β) :
    Triple (· = c₀) repairStage (fun _ ↦ Paces .repairing c₀) (fun _ ↦ Paces .repairing c₀) := by
  unfold repairStage
  refine Triple.get_bind fun c₁ hc₁ ↦ ?_
  subst hc₁
  generalize c₁.shelf.load c₁.store c₁.request.scope = loaded
  obtain ⟨result, store⟩ := loaded
  dsimp only
  refine Triple.bind (Triple.set_of (Q := fun _ _ ↦ True) fun _ _ ↦ trivial) fun _ ↦ ?_
  generalize hcfg : RepairConfig.mk _ _ _ _ _ _ _ = cfg
  -- loading changes the store and the recorded version, nothing the notes see
  let c₂ : RunContext σ β := { c₁ with store, stats := { c₁.stats with
    qtableVersion := (result.toOption.getD {}).version } }
  have hT : c₂.strategy.CountsFit → cfg.iterations < 2 ^ 63 := fun hfit ↦ by
    rw [← hcfg]
    exact hfit.2
  obtain ⟨it, c₃, hw, hc₃⟩ := Timetable.repair_watch_from (I := Noted .repairing cfg.iterations c₂)
    (c₁.timetable.getD (Timetable.empty c₁.catalog)) c₁.domain (result.toOption.getD {}) cfg
    ⟨c₂, repairNote c₁.config.every, fun c ↦ c.observer.halted⟩
    (fun c _ left hit h ↦ repairNote_noted hT _ hit left h)
    ⟨.refl c₂, .start Stage.band_repairing hT _⟩
  -- pacing reads the stage, the strategy and the observer, on which loading changed nothing
  have hpaces : Paces .repairing c₁ c₃ :=
    have h := hc₃.paces
    ⟨h.stage, h.fits, h.heard⟩
  split <;> rename_i heq <;> rw [heq] at hw <;> cases hw
  · exact Triple.bind (Triple.set_of (Q := fun _ ↦ Paces .repairing c₁) fun _ _ ↦ hpaces) fun _ ↦
      Triple.throw_of _ fun _ h ↦ h
  · exact Triple.bind (Triple.set_of (Q := fun _ ↦ Paces .repairing c₁) fun _ _ ↦ hpaces) fun _ ↦
      Triple.throw_of _ fun _ h ↦ h
  · exact Triple.bind (Triple.set_of (Q := fun _ ↦ Paces .repairing c₁) fun _ _ ↦
      hpaces.step rfl rfl rfl) fun _ ↦ Triple.pure_of _ fun _ h ↦ h

end RunStep

end Timetabling
