import Mathlib
import Timetabling.Proofs.Number.Scale
import Timetabling.Proofs.Number.Order

/-! # Rounding to nearest

Each arithmetic operation of Lean's model of a double computes the leading bits of the exact
result and two more, the round and sticky bits, and rounds to a 53-bit mantissa, to nearest with
ties to even. This file states that rounding as a function of the exact value, `nearest`, and
proves it monotone (`nearest_mono`): a larger exact value never rounds to a smaller double.

The round and sticky bits say where the exact value lies past the mantissa
(`ExtendedMantissa.Describes`), shifting keeps that description, and the rounded mantissa is the
exact value rounded (`Describes.roundedMantissa`); so the model's rounding gives `nearest`
(`roundWithAccuracy_nearest`). Products, quotients and sums of positive normal doubles and the
conversion of a natural number are then the doubles nearest their exact values
(`Float.Stores.mul`, `Float.Stores.div`, `Float.Stores.add`, `Float.stores_ofNat`), and doubles
that store values compare as the values do (`Float.Stores.le_iff`). -/

namespace Float.Model

/-- The whole number nearest `q`, ties to the even one. -/
def nearestEven (q : ℚ) : ℕ :=
  if q - ⌊q⌋₊ < 1 / 2 then ⌊q⌋₊
  else if q - ⌊q⌋₊ = 1 / 2 then ⌊q⌋₊ + ⌊q⌋₊ % 2
  else ⌊q⌋₊ + 1

theorem floor_le_nearestEven (q : ℚ) : ⌊q⌋₊ ≤ nearestEven q := by
  unfold nearestEven
  split_ifs <;> omega

theorem nearestEven_le_floor_add_one (q : ℚ) : nearestEven q ≤ ⌊q⌋₊ + 1 := by
  unfold nearestEven
  split_ifs <;> omega

/-- Rounding never passes a whole number above the value. -/
theorem nearestEven_le_of_le {q : ℚ} {n : ℕ} (h : q ≤ n) : nearestEven q ≤ n := by
  rcases (Nat.floor_le_of_le h).lt_or_eq with hlt | heq
  · exact (nearestEven_le_floor_add_one q).trans hlt
  · -- the value is at most its floor: nothing is rounded up
    have hfrac : q - ⌊q⌋₊ < 1 / 2 := by rw [heq]; linarith
    rw [nearestEven, if_pos hfrac, heq]

theorem le_nearestEven_of_le {q : ℚ} {n : ℕ} (h : (n : ℚ) ≤ q) : n ≤ nearestEven q :=
  (Nat.le_floor h).trans (floor_le_nearestEven q)

@[simp] theorem nearestEven_natCast (n : ℕ) : nearestEven n = n :=
  le_antisymm (nearestEven_le_of_le le_rfl) (le_nearestEven_of_le le_rfl)

theorem nearestEven_le_of_frac_le_half {q : ℚ} (h : q - ⌊q⌋₊ ≤ 1 / 2) :
    nearestEven q ≤ ⌊q⌋₊ + ⌊q⌋₊ % 2 := by
  unfold nearestEven
  split_ifs with h₁ h₂
  · omega
  · exact le_rfl
  · exact absurd (lt_of_le_of_ne h h₂) h₁

theorem nearestEven_mono {q q' : ℚ} (h : q ≤ q') : nearestEven q ≤ nearestEven q' := by
  rcases (Nat.floor_mono h).lt_or_eq with hlt | heq
  · calc nearestEven q ≤ ⌊q⌋₊ + 1 := nearestEven_le_floor_add_one q
      _ ≤ ⌊q'⌋₊ := hlt
      _ ≤ nearestEven q' := floor_le_nearestEven q'
  · -- one floor: the rounding grows with the fraction past it
    have hfrac : q - ⌊q⌋₊ ≤ q' - ⌊q'⌋₊ := by rw [← heq]; linarith
    rcases lt_trichotomy (q' - ⌊q'⌋₊) (1 / 2) with hb | hb | hb
    · rw [nearestEven, nearestEven, if_pos (hfrac.trans_lt hb), if_pos hb, heq]
    · calc nearestEven q ≤ ⌊q⌋₊ + ⌊q⌋₊ % 2 := nearestEven_le_of_frac_le_half (hfrac.trans hb.le)
        _ = nearestEven q' := by rw [nearestEven, if_neg hb.not_lt, if_pos hb, heq]
    · calc nearestEven q ≤ ⌊q⌋₊ + 1 := nearestEven_le_floor_add_one q
        _ = nearestEven q' := by rw [nearestEven, if_neg (by linarith), if_neg hb.ne', heq]

/-- The exponent of the last place a double keeps of a positive `x`: 53 significant bits, down
to the last place of the subnormal numbers. -/
def ulpExponent (x : ℚ) : ℤ := max (Int.log 2 x - 52) (-1074)

/-- The double nearest a positive `x`, as a rational and before any overflow: `x` rounded to a
whole number of its last places, ties to even. -/
def nearest (x : ℚ) : ℚ := nearestEven (x / 2 ^ ulpExponent x) * 2 ^ ulpExponent x

variable {x y : ℚ}

theorem nearest_nonneg (x : ℚ) : 0 ≤ nearest x := by
  rw [nearest]
  positivity

theorem log_eq_of_le_of_lt {k : ℤ} (h₁ : (2 : ℚ) ^ k ≤ x) (h₂ : x < 2 ^ (k + 1)) :
    Int.log 2 x = k := by
  have hx : 0 < x := (zpow_pos two_pos k).trans_le h₁
  have hle := (Int.zpow_le_iff_le_log (b := 2) (by norm_num) hx).1 (by exact_mod_cast h₁)
  have hlt := (Int.lt_zpow_iff_log_lt (b := 2) (by norm_num) hx).1 (by exact_mod_cast h₂)
  omega

theorem div_two_pow_ulpExponent_lt (x : ℚ) : x / 2 ^ ulpExponent x < 2 ^ 53 := by
  have hlt : x < 2 ^ (Int.log 2 x + 1) := by
    exact_mod_cast Int.lt_zpow_succ_log_self (b := 2) (by norm_num) x
  rw [div_lt_iff₀ (by positivity)]
  calc x < 2 ^ (Int.log 2 x + 1) := hlt
    _ ≤ 2 ^ ((53 : ℕ) + ulpExponent x) :=
        zpow_le_zpow_right₀ (by norm_num) (by unfold ulpExponent; omega)
    _ = 2 ^ 53 * 2 ^ ulpExponent x := by rw [zpow_add₀ two_ne_zero, zpow_natCast]

/-- Above the subnormal range a value has 53 significant bits down to its last place. -/
theorem two_pow_le_div_two_pow_ulpExponent (hx : 0 < x) (hn : -1074 ≤ Int.log 2 x - 52) :
    2 ^ 52 ≤ x / 2 ^ ulpExponent x := by
  have hE : ulpExponent x = Int.log 2 x - 52 := max_eq_left hn
  rw [le_div_iff₀ (by positivity), hE]
  calc (2 : ℚ) ^ 52 * 2 ^ (Int.log 2 x - 52) = 2 ^ Int.log 2 x := by
        rw [← zpow_natCast, ← zpow_add₀ two_ne_zero]; congr 1; omega
    _ ≤ x := by exact_mod_cast Int.zpow_log_le_self (b := 2) (by norm_num) hx

theorem ulpExponent_mono (hx : 0 < x) (h : x ≤ y) : ulpExponent x ≤ ulpExponent y := by
  have := Int.log_mono_right (b := 2) hx h
  unfold ulpExponent
  omega

theorem nearest_le_two_pow (x : ℚ) : nearest x ≤ 2 ^ (ulpExponent x + 53) := by
  have hr : nearestEven (x / 2 ^ ulpExponent x) ≤ 2 ^ 53 :=
    nearestEven_le_of_le (by exact_mod_cast (div_two_pow_ulpExponent_lt x).le)
  rw [nearest, zpow_add₀ two_ne_zero, mul_comm (2 ^ ulpExponent x)]
  gcongr
  exact_mod_cast hr

theorem two_pow_le_nearest (hx : 0 < x) (hn : -1074 ≤ Int.log 2 x - 52) :
    2 ^ (ulpExponent x + 52) ≤ nearest x := by
  have hr : 2 ^ 52 ≤ nearestEven (x / 2 ^ ulpExponent x) :=
    le_nearestEven_of_le (by exact_mod_cast two_pow_le_div_two_pow_ulpExponent hx hn)
  rw [nearest, zpow_add₀ two_ne_zero, mul_comm (2 ^ ulpExponent x)]
  gcongr
  exact_mod_cast hr

/-- Rounding to nearest is monotone: a larger value never rounds to a smaller double. -/
theorem nearest_mono (hx : 0 < x) (h : x ≤ y) : nearest x ≤ nearest y := by
  have hy : 0 < y := hx.trans_le h
  rcases (ulpExponent_mono hx h).lt_or_eq with hlt | heq
  · -- `x` rounds to at most the power of two that `y`, with a larger last place, is above
    have hn : -1074 ≤ Int.log 2 y - 52 := by unfold ulpExponent at hlt; omega
    calc nearest x ≤ 2 ^ (ulpExponent x + 53) := nearest_le_two_pow x
      _ ≤ 2 ^ (ulpExponent y + 52) := zpow_le_zpow_right₀ (by norm_num) (by omega)
      _ ≤ nearest y := two_pow_le_nearest hy hn
  · unfold nearest
    rw [heq]
    gcongr
    exact nearestEven_mono (by gcongr)

/-- A value of 53 significant bits, in the normal range, is a double: it rounds to itself. -/
theorem nearest_normal {m : ℕ} {e : ℤ} (h₁ : 2 ^ 52 ≤ m) (h₂ : m < 2 ^ 53) (he : -1074 ≤ e) :
    nearest (m * 2 ^ e) = m * 2 ^ e := by
  have hlog : Int.log 2 ((m : ℚ) * 2 ^ e) = 52 + e := by
    apply log_eq_of_le_of_lt
    · rw [zpow_add₀ two_ne_zero]
      gcongr
      exact_mod_cast h₁
    · rw [show (52 + e + 1 : ℤ) = (53 : ℕ) + e by push_cast; ring, zpow_add₀ two_ne_zero]
      gcongr
      exact_mod_cast h₂
  have hE : ulpExponent ((m : ℚ) * 2 ^ e) = e := by
    unfold ulpExponent
    omega
  rw [nearest, hE, mul_div_cancel_right₀ _ (by positivity), nearestEven_natCast]

/-- The mantissa a whole number is shifted up to, at the exponent that shifts it back, is the
number. -/
theorem mul_two_pow_sub_log2_value (n : ℕ) :
    ((n * 2 ^ (52 - n.log2) : ℕ) : ℚ) * 2 ^ (-(52 - n.log2 : ℕ) : ℤ) = n := by
  push_cast
  rw [zpow_neg, zpow_natCast, mul_assoc, mul_inv_cancel₀ (by positivity), mul_one]

/-- A positive integer of at most 53 bits is a double. -/
theorem nearest_natCast {n : ℕ} (h0 : 0 < n) (hn : n < 2 ^ 53) : nearest n = n := by
  have hN := UnpackedFloat.normal_mul_two_pow_sub_log2 h0 hn
  rw [← mul_two_pow_sub_log2_value n]
  exact nearest_normal hN.two_pow_le hN.lt_two_pow hN.exponent_ge

namespace UnpackedFloat

/-- What an accuracy says of the exact value `q` of a mantissa `m`, in units of its last place:
`q` is `m`, or lies strictly between `m` and `m + 1`, on the given side of `m + 1/2`. -/
def Accuracy.Holds : Accuracy → ℕ → ℚ → Prop
  | .exact, m, q => q = m
  | .inexact o, m, q => (m : ℚ) < q ∧ q < m + 1 ∧ compare q (m + 1 / 2) = o

variable {acc : Accuracy} {m : ℕ} {q : ℚ}

theorem Accuracy.Holds.bounds (h : acc.Holds m q) : (m : ℚ) ≤ q ∧ q < m + 1 := by
  cases acc with
  | exact =>
    rw [Holds] at h
    rw [h]
    constructor <;> linarith
  | inexact o => exact ⟨h.1.le, h.2.1⟩

theorem Accuracy.Holds.floor_eq (h : acc.Holds m q) : ⌊q⌋₊ = m :=
  (Nat.floor_eq_iff ((Nat.cast_nonneg m).trans h.bounds.1)).2 h.bounds

/-- Rounding to nearest, ties to even, from the mantissa and its accuracy, rounds the exact
value. -/
theorem Accuracy.Holds.roundToNearestEven (h : acc.Holds m q) :
    acc.roundToNearestEven m = nearestEven q := by
  have hfloor := h.floor_eq
  unfold nearestEven
  rw [hfloor]
  cases acc with
  | exact =>
    rw [Holds] at h
    simp [Accuracy.roundToNearestEven, h]
  | inexact o =>
    obtain ⟨-, -, ho⟩ := h
    cases o with
    | lt =>
      rw [compare_lt_iff_lt] at ho
      rw [if_pos (by linarith)]
      rfl
    | eq =>
      rw [compare_eq_iff_eq] at ho
      rw [if_neg (by linarith), if_pos (by linarith)]
      rfl
    | gt =>
      rw [compare_gt_iff_gt] at ho
      rw [if_neg (by linarith), if_neg (by linarith)]
      rfl

namespace ExtendedMantissa

/-- The bits of an extended mantissa describe the value `q`: the accuracy its round and sticky
bits encode holds of its mantissa and `q`. -/
def Describes (em : ExtendedMantissa) (q : ℚ) : Prop :=
  em.accuracy.Holds em.mantissa q

theorem describes_ofMantissaAndAccuracy :
    (ofMantissaAndAccuracy m acc).Describes q ↔ acc.Holds m q := by
  rcases acc with _ | ⟨_ | _ | _⟩ <;> rfl

variable {em : ExtendedMantissa}

/-- Shifting out one bit halves the value described. -/
theorem Describes.shiftRightOne (h : em.Describes q) : em.shiftRightOne.Describes (q / 2) := by
  obtain ⟨m, r, s⟩ := em
  -- the bit shifted out becomes the round bit, and the old round and sticky bits the sticky bit
  obtain ⟨j, rfl | rfl⟩ := Nat.even_or_odd' m <;>
    have hj : (2 * j + 1) / 2 = j := by omega
  all_goals
    rcases r with _ | _ <;> rcases s with _ | _ <;>
      simp [Describes, ExtendedMantissa.shiftRightOne, accuracy, Accuracy.Holds, hj,
        compare_lt_iff_lt, compare_gt_iff_gt] at h ⊢ <;>
      grind

theorem Describes.shiftRight (h : em.Describes q) (n : ℕ) : (em >>> n).Describes (q / 2 ^ n) := by
  induction n with
  | zero => simpa [shiftRight_zero] using h
  | succ n ih =>
    rw [shiftRight_succ, pow_succ, ← div_div]
    exact ih.shiftRightOne

theorem Describes.roundedMantissa (h : em.Describes q) : em.roundedMantissa = nearestEven q :=
  Accuracy.Holds.roundToNearestEven h

end ExtendedMantissa

open ExtendedMantissa

/-- Rounding a mantissa of at least 53 bits whose accuracy holds of `x` scaled down by the
exponent gives the double nearest `x`, when `x` is in the normal range. -/
theorem roundWithAccuracy_nearest (s : Sign) {e : ℤ} {x : ℚ} (hm : 2 ^ 52 ≤ m)
    (hacc : acc.Holds m (x / 2 ^ e)) (hx : 2 ^ (-1022 : ℤ) ≤ x) :
    ∃ M E hM, roundWithAccuracy Format.binary64 s m e acc = .finite s M E hM ∧
      2 ^ 52 ≤ M ∧ M < 2 ^ 53 ∧ -1074 ≤ E ∧ (M : ℚ) * 2 ^ E = nearest x := by
  have hlog2 : 52 ≤ m.log2 := (Nat.le_log2 (by omega)).mpr hm
  have hpos : (0 : ℚ) < 2 ^ e := by positivity
  -- the value lies between the mantissa and the next whole number, in units of `2^e`
  obtain ⟨hlo, hhi⟩ := hacc.bounds
  rw [le_div_iff₀ hpos] at hlo
  rw [div_lt_iff₀ hpos] at hhi
  have hlog : Int.log 2 x = m.log2 + e := by
    apply log_eq_of_le_of_lt
    · calc (2 : ℚ) ^ ((m.log2 : ℤ) + e) = ((2 ^ m.log2 : ℕ) : ℚ) * 2 ^ e := by
            rw [zpow_add₀ two_ne_zero]; norm_cast
        _ ≤ m * 2 ^ e := by gcongr; exact_mod_cast Nat.log2_self_le (by omega)
        _ ≤ x := hlo
    · calc x < (m + 1) * 2 ^ e := hhi
        _ ≤ ((2 ^ (m.log2 + 1) : ℕ) : ℚ) * 2 ^ e := by
            gcongr; exact_mod_cast Nat.lt_log2_self
        _ = 2 ^ ((m.log2 : ℤ) + e + 1) := by
            rw [show ((m.log2 : ℤ) + e + 1) = ((m.log2 + 1 : ℕ) : ℤ) + e by push_cast; ring,
              zpow_add₀ two_ne_zero]; norm_cast
  have hnormal : -1022 ≤ Int.log 2 x :=
    (Int.zpow_le_iff_le_log (b := 2) (by norm_num) ((zpow_pos two_pos _).trans_le hx)).1
      (by exact_mod_cast hx)
  have hulp : ulpExponent x = e + (m.log2 - 52 : ℕ) := by
    unfold ulpExponent
    omega
  obtain ⟨M, E, hM, hround, hM₁, hM₂, hcase⟩ :=
    roundWithAccuracy_spec s acc hm (e := e) (by omega)
  -- the first rounding rounds the value in units of its last place
  have hdesc : (ofMantissaAndAccuracy m acc >>> (m.log2 - 52)).Describes
      (x / 2 ^ ulpExponent x) := by
    have := (describes_ofMantissaAndAccuracy.2 hacc).shiftRight (m.log2 - 52)
    rwa [div_div, ← zpow_natCast, ← zpow_add₀ two_ne_zero, ← hulp] at this
  rw [hdesc.roundedMantissa, ← hulp] at hcase
  refine ⟨M, E, hM, hround, hM₁, hM₂, by omega, ?_⟩
  rcases hcase with ⟨rfl, rfl⟩ | ⟨hcarry, rfl, rfl⟩
  · rfl
  · -- a carry out of the 53 bits: the same value one exponent up
    rw [nearest, hcarry, zpow_add_one₀ two_ne_zero]
    push_cast
    ring

namespace NormalParts

/-- A normal double is at least the least normal power of two. -/
theorem two_pow_le_value (h : NormalParts m e) : (2 : ℚ) ^ (-1022 : ℤ) ≤ m * 2 ^ e :=
  calc (2 : ℚ) ^ (-1022 : ℤ) = 2 ^ 52 * 2 ^ (-1074 : ℤ) := by
        rw [← zpow_natCast, ← zpow_add₀ two_ne_zero]; norm_num
    _ ≤ m * 2 ^ e := by
      gcongr
      · exact_mod_cast h.two_pow_le
      · norm_num
      · exact h.exponent_ge

theorem value_lt_two_pow (h : NormalParts m e) : (m : ℚ) * 2 ^ e < 2 ^ (e + 53) := by
  rw [zpow_add₀ two_ne_zero, mul_comm (2 ^ e)]
  gcongr
  exact_mod_cast h.lt_two_pow

/-- Of two normal doubles, the one with the smaller exponent has the smaller value. -/
theorem value_lt_of_exponent_lt {m' : ℕ} {e' : ℤ} (h : NormalParts m e) (h' : NormalParts m' e')
    (hlt : e < e') : (m : ℚ) * 2 ^ e < m' * 2 ^ e' :=
  calc (m : ℚ) * 2 ^ e < 2 ^ (e + 53) := h.value_lt_two_pow
    _ ≤ 2 ^ 52 * 2 ^ e' := by
      rw [← zpow_natCast, ← zpow_add₀ two_ne_zero]
      exact zpow_le_zpow_right₀ (by norm_num) (by push_cast; omega)
    _ ≤ m' * 2 ^ e' := by gcongr; exact_mod_cast h'.two_pow_le

end NormalParts

/-- A positive double in the normal range whose value is the double nearest `x`; its exponent may
still be past the largest that a double stores. -/
def IsNearest (u : UnpackedFloat) (x : ℚ) : Prop :=
  ∃ M E hM, u = .finite .positive M E hM ∧ 2 ^ 52 ≤ M ∧ M < 2 ^ 53 ∧ -1074 ≤ E ∧
    (M : ℚ) * 2 ^ E = nearest x

variable {m₁ m₂ : ℕ} {e e₁ e₂ : ℤ}

/-- The exact product of two positive normal doubles, rounded to nearest. -/
theorem mul_isNearest (h₁ : 2 ^ 52 ≤ m₁) (hm₁ : 0 < m₁)
    (hm₂ : 0 < m₂) (hx : 2 ^ (-1022 : ℤ) ≤ (m₁ * 2 ^ e₁ : ℚ) * (m₂ * 2 ^ e₂)) :
    IsNearest (mul Format.binary64 (.finite .positive m₁ e₁ hm₁) (.finite .positive m₂ e₂ hm₂))
      ((m₁ * 2 ^ e₁ : ℚ) * (m₂ * 2 ^ e₂)) := by
  have hexact : Accuracy.exact.Holds (m₁ * m₂) ((m₁ * 2 ^ e₁ : ℚ) * (m₂ * 2 ^ e₂) / 2 ^ (e₁ + e₂)) := by
    show _ = _
    rw [zpow_add₀ two_ne_zero]
    field_simp
    push_cast
    ring
  exact roundWithAccuracy_nearest .positive
    (Nat.le_trans h₁ (Nat.le_mul_of_pos_right _ hm₂)) hexact hx

theorem round_of_two_pow_le (s : Sign) {e : ℤ} (hm : 2 ^ 52 ≤ m) :
    round Format.binary64 s m e = roundWithAccuracy Format.binary64 s m e .exact := by
  have hlog : 52 ≤ m.log2 := (Nat.le_log2 (by omega)).mpr hm
  have ht : (e - Format.binary64.targetExponent (totalExponent m e)).toNat = 0 := by
    simp only [Format.targetExponent, totalExponent, Format.mantissaBits, Format.minExponent]
    omega
  simp only [round, decreaseExponent, ht, Nat.shiftLeft_zero, Int.natCast_zero, Int.sub_zero]

/-- The exact sum of two positive normal doubles, rounded to nearest. -/
theorem add_isNearest (h₁ : NormalParts m₁ e₁) (hm₁ : 0 < m₁)
    (hm₂ : 0 < m₂) :
    IsNearest (add Format.binary64 (.finite .positive m₁ e₁ hm₁) (.finite .positive m₂ e₂ hm₂))
      ((m₁ * 2 ^ e₁ : ℚ) + m₂ * 2 ^ e₂) := by
  simp only [add, decreaseExponent, Sign.apply]
  -- both mantissas are shifted to the smaller exponent, where their sum is exact
  have hshift : ∀ (n : ℕ) (e : ℤ), min e₁ e₂ ≤ e →
      ((n <<< (e - min e₁ e₂).toNat : ℕ) : ℚ) * 2 ^ min e₁ e₂ = n * 2 ^ e := by
    intro n e he
    rw [Nat.shiftLeft_eq]
    push_cast
    rw [← zpow_natCast, Int.toNat_of_nonneg (by omega), mul_assoc, ← zpow_add₀ two_ne_zero,
      sub_add_cancel]
  have hn : 2 ^ 52 ≤ m₁ <<< (e₁ - min e₁ e₂).toNat + m₂ <<< (e₂ - min e₁ e₂).toNat := by
    have := Nat.le_mul_of_pos_right m₁ (Nat.two_pow_pos (e₁ - min e₁ e₂).toNat)
    have := h₁.two_pow_le
    simp only [Nat.shiftLeft_eq]
    omega
  rw [normalize, ← Int.natCast_add, Int.compare_eq_gt.mpr (by omega), Int.toNat_natCast,
    round_of_two_pow_le .positive hn]
  refine roundWithAccuracy_nearest .positive hn ?_ ?_
  · show _ = _
    rw [div_eq_iff (by positivity)]
    push_cast
    rw [add_mul, hshift m₁ e₁ (min_le_left _ _), hshift m₂ e₂ (min_le_right _ _)]
  · calc (2 : ℚ) ^ (-1022 : ℤ) ≤ m₁ * 2 ^ e₁ := h₁.two_pow_le_value
      _ ≤ m₁ * 2 ^ e₁ + m₂ * 2 ^ e₂ := le_add_of_nonneg_right (by positivity)

/-- The accuracy division computes from the remainder holds of the exact quotient. -/
theorem accuracyOfFraction_holds (a : ℕ) {d : ℕ} (hd : 0 < d) :
    (accuracyOfFraction (a % d) d).Holds (a / d) ((a : ℚ) / d) := by
  have hd' : (0 : ℚ) < d := by exact_mod_cast hd
  -- the quotient is the whole part and the remainder over the divisor
  have hsplit : (a : ℚ) / d = (a / d : ℕ) + ((a % d : ℕ) : ℚ) / d := by
    conv_lhs => rw [← Nat.div_add_mod a d]
    push_cast
    rw [add_div, mul_div_cancel_left₀ _ hd'.ne']
  have hr : ((a % d : ℕ) : ℚ) / d < 1 := (div_lt_one hd').2 (by exact_mod_cast Nat.mod_lt a hd)
  unfold accuracyOfFraction
  split
  · rename_i h0
    show _ = _
    rw [hsplit, h0]
    simp
  · rename_i h0
    have hr0 : 0 < ((a % d : ℕ) : ℚ) / d := by positivity
    refine ⟨by linarith, by linarith, ?_⟩
    -- the remainder is past half the divisor exactly when the quotient is past the half
    rw [hsplit]
    rcases lt_trichotomy (2 * (a % d)) d with h | h | h
    · rw [(compare_lt_iff_lt).2 h, compare_lt_iff_lt, add_lt_add_iff_left, div_lt_iff₀ hd']
      have : ((2 * (a % d) : ℕ) : ℚ) < d := by exact_mod_cast h
      push_cast at this
      linarith
    · rw [(compare_eq_iff_eq).2 h, compare_eq_iff_eq, add_right_inj, div_eq_iff hd'.ne']
      have : ((2 * (a % d) : ℕ) : ℚ) = d := by exact_mod_cast h
      push_cast at this
      linarith
    · rw [(compare_gt_iff_gt).2 h, compare_gt_iff_gt, add_lt_add_iff_left, lt_div_iff₀ hd']
      have : (d : ℚ) < ((2 * (a % d) : ℕ) : ℚ) := by exact_mod_cast h
      push_cast at this
      linarith

/-- Dividing normal doubles whose quotient is in the normal range shifts the dividend's mantissa
up by 53 bits and divides by the divisor's. -/
theorem divCore_normal (h₁ : NormalParts m₁ e₁) (h₂ : NormalParts m₂ e₂) (he : -1021 ≤ e₁ - e₂) :
    divCore Format.binary64 m₁ e₁ m₂ e₂ =
      (m₁ * 2 ^ 53 / m₂, e₁ - e₂ - 53, accuracyOfFraction (m₁ * 2 ^ 53 % m₂) m₂) := by
  have ht : min (e₁ - e₂) (Format.binary64.targetExponent
      (totalExponent m₁ e₁ - totalExponent m₂ e₂)) = e₁ - e₂ - 53 := by
    simp only [Format.targetExponent, totalExponent, h₁.log2_eq, h₂.log2_eq,
      Format.mantissaBits, Format.minExponent]
    omega
  simp only [divCore, ht, show (e₁ - e₂ - (e₁ - e₂ - 53)).toNat = 53 by omega, Nat.shiftLeft_eq]

/-- The exact quotient of two positive normal doubles, rounded to nearest. -/
theorem div_isNearest (h₁ : NormalParts m₁ e₁) (h₂ : NormalParts m₂ e₂) (hm₁ : 0 < m₁)
    (hm₂ : 0 < m₂) (hx : 2 ^ (-1021 : ℤ) ≤ (m₁ * 2 ^ e₁ : ℚ) / (m₂ * 2 ^ e₂)) :
    IsNearest (div Format.binary64 (.finite .positive m₁ e₁ hm₁) (.finite .positive m₂ e₂ hm₂))
      ((m₁ * 2 ^ e₁ : ℚ) / (m₂ * 2 ^ e₂)) := by
  -- the quotient is below `2^(e₁ - e₂ + 1)`, so its exponent is in range
  have he : -1021 ≤ e₁ - e₂ := by
    have hlt : (m₁ * 2 ^ e₁ : ℚ) / (m₂ * 2 ^ e₂) < 2 ^ (e₁ - e₂ + 1) := by
      rw [div_lt_iff₀ (by positivity)]
      calc (m₁ * 2 ^ e₁ : ℚ) < 2 ^ (e₁ + 53) := h₁.value_lt_two_pow
        _ = 2 ^ (e₁ - e₂ + 1) * (2 ^ 52 * 2 ^ e₂) := by
            rw [← zpow_natCast, ← zpow_add₀ two_ne_zero, ← zpow_add₀ two_ne_zero]; congr 1; push_cast; ring
        _ ≤ 2 ^ (e₁ - e₂ + 1) * (m₂ * 2 ^ e₂) := by gcongr; exact_mod_cast h₂.two_pow_le
    have := hx.trans_lt hlt
    have := (zpow_lt_zpow_iff_right₀ (by norm_num : (1 : ℚ) < 2)).1 this
    omega
  have hq : 2 ^ 52 ≤ m₁ * 2 ^ 53 / m₂ := by
    rw [Nat.le_div_iff_mul_le hm₂]
    have := h₁.two_pow_le
    have := h₂.lt_two_pow
    omega
  have hacc : (accuracyOfFraction (m₁ * 2 ^ 53 % m₂) m₂).Holds (m₁ * 2 ^ 53 / m₂)
      ((m₁ * 2 ^ e₁ : ℚ) / (m₂ * 2 ^ e₂) / 2 ^ (e₁ - e₂ - 53)) := by
    convert accuracyOfFraction_holds (m₁ * 2 ^ 53) hm₂ using 1
    rw [zpow_sub₀ two_ne_zero, zpow_sub₀ two_ne_zero]
    field_simp
    push_cast
    ring
  simp only [div, divCore_normal h₁ h₂ he]
  exact roundWithAccuracy_nearest .positive hq hacc
    ((zpow_le_zpow_right₀ (by norm_num) (by norm_num)).trans hx)

end UnpackedFloat

end Float.Model

namespace Float

open Float.Model UnpackedFloat

/-- The double `x` stores the positive rational `v`, as a normal number. -/
def Stores (x : Float) (v : ℚ) : Prop :=
  ∃ M E hM, NormalParts M E ∧ x.toModel.unpack = .finite .positive M E hM ∧ (M : ℚ) * 2 ^ E = v

variable {x y : Float} {v w : ℚ}

theorem Stores.pos (h : x.Stores v) : 0 < v := by
  obtain ⟨M, E, hM, -, -, rfl⟩ := h
  positivity

theorem Stores.two_pow_le (h : x.Stores v) : 2 ^ (-1022 : ℤ) ≤ v := by
  obtain ⟨M, E, hM, hN, -, rfl⟩ := h
  exact hN.two_pow_le_value

/-- A stored value is a double: it rounds to itself. -/
theorem Stores.nearest_eq (h : x.Stores v) : nearest v = v := by
  obtain ⟨M, E, hM, hN, -, rfl⟩ := h
  exact nearest_normal hN.two_pow_le hN.lt_two_pow hN.exponent_ge

/-- A double in the normal range and not too large, packed, stores the value it rounds to. -/
theorem stores_of_isNearest {u : UnpackedFloat} {q : ℚ} (h : u.IsNearest q) (hq : 0 < q)
    (hq' : q ≤ 2 ^ 64) : (Float.ofModel (pack u)).Stores (nearest q) := by
  obtain ⟨M, E, hM, rfl, hM₁, hM₂, hE, hval⟩ := h
  -- the value is at most `2^64`, a double, so the exponent is far from the top
  have htop : nearest ((2 : ℚ) ^ 52 * 2 ^ (12 : ℤ)) = 2 ^ 52 * 2 ^ (12 : ℤ) := by
    have := nearest_normal (m := 2 ^ 52) (e := 12) le_rfl (by norm_num) (by norm_num)
    push_cast at this
    exact this
  have hle : (M : ℚ) * 2 ^ E ≤ 2 ^ 52 * 2 ^ (12 : ℤ) := by
    rw [hval, ← htop]
    exact nearest_mono hq (by norm_num; linarith)
  have hE' : E ≤ 12 := by
    by_contra hlt
    have : (2 : ℚ) ^ 52 * 2 ^ (12 : ℤ) < M * 2 ^ E := by
      calc (2 : ℚ) ^ 52 * 2 ^ (12 : ℤ) < 2 ^ 52 * 2 ^ E := by
            gcongr
            · norm_num
            · omega
        _ ≤ (M : ℚ) * 2 ^ E := by gcongr; exact_mod_cast hM₁
    linarith
  exact ⟨M, E, hM, ⟨hM₁, hM₂, hE, by omega⟩, Model.unpack_pack_normal ⟨hM₁, hM₂, hE, by omega⟩ hM,
    hval⟩

/-- Normal doubles compare as their values do: by exponent, then by mantissa. -/
theorem value_le_iff {M M' : ℕ} {E E' : ℤ} (h : NormalParts M E) (h' : NormalParts M' E') :
    (M : ℚ) * 2 ^ E ≤ M' * 2 ^ E' ↔ ((compare E E').then (compare M M')).isLE := by
  rcases lt_trichotomy E E' with hlt | rfl | hgt
  · rw [(compare_lt_iff_lt).2 hlt]
    simp only [Ordering.then, Ordering.isLE, iff_true]
    exact (h.value_lt_of_exponent_lt h' hlt).le
  · -- one exponent: the mantissas decide
    rw [(compare_eq_iff_eq).2 rfl, Ordering.then, Nat.isLE_compare]
    constructor
    · intro hle
      exact_mod_cast le_of_mul_le_mul_right hle (by positivity)
    · intro hle
      gcongr
  · rw [(compare_gt_iff_gt).2 hgt]
    simp only [Ordering.then, Ordering.isLE, Bool.false_eq_true, iff_false, not_le]
    exact h'.value_lt_of_exponent_lt h hgt

/-- Doubles that store values compare as the values do. -/
theorem Stores.le_iff (hx : x.Stores v) (hy : y.Stores w) : x ≤ y ↔ v ≤ w := by
  obtain ⟨M, E, hM, hN, hu, rfl⟩ := hx
  obtain ⟨M', E', hM', hN', hu', rfl⟩ := hy
  rw [le_iff_compare, hu, hu', value_le_iff hN hN']
  rfl

/-- A stored value is not below zero. -/
theorem Stores.not_lt_zero (hx : x.Stores v) : ¬ x < 0 := by
  obtain ⟨M, E, hM, -, hu, -⟩ := hx
  rw [lt_iff_compare, hu, show (0 : Float).toModel.unpack = .zero .positive from rfl]
  simp [UnpackedFloat.compare]

theorem Stores.mul (hx : x.Stores v) (hy : y.Stores w) (hlo : 2 ^ (-1022 : ℤ) ≤ v * w)
    (hhi : v * w ≤ 2 ^ 64) : (x * y).Stores (nearest (v * w)) := by
  obtain ⟨M, E, hM, hN, hu, rfl⟩ := hx
  obtain ⟨M', E', hM', hN', hu', rfl⟩ := hy
  show (Float.ofModel (pack (UnpackedFloat.mul Format.binary64 x.toModel.unpack
    y.toModel.unpack))).Stores _
  rw [hu, hu']
  exact stores_of_isNearest (mul_isNearest hN.two_pow_le hM hM' hlo) (by positivity) hhi

theorem Stores.div (hx : x.Stores v) (hy : y.Stores w) (hlo : 2 ^ (-1021 : ℤ) ≤ v / w)
    (hhi : v / w ≤ 2 ^ 64) : (x / y).Stores (nearest (v / w)) := by
  obtain ⟨M, E, hM, hN, hu, rfl⟩ := hx
  obtain ⟨M', E', hM', hN', hu', rfl⟩ := hy
  show (Float.ofModel (pack (UnpackedFloat.div Format.binary64 x.toModel.unpack
    y.toModel.unpack))).Stores _
  rw [hu, hu']
  exact stores_of_isNearest (div_isNearest hN hN' hM hM' hlo) (by positivity) hhi

theorem Stores.add (hx : x.Stores v) (hy : y.Stores w) (hhi : v + w ≤ 2 ^ 64) :
    (x + y).Stores (nearest (v + w)) := by
  obtain ⟨M, E, hM, hN, hu, rfl⟩ := hx
  obtain ⟨M', E', hM', hN', hu', rfl⟩ := hy
  show (Float.ofModel (pack (UnpackedFloat.add Format.binary64 x.toModel.unpack
    y.toModel.unpack))).Stores _
  rw [hu, hu']
  exact stores_of_isNearest (add_isNearest hN hM hM') (by positivity) hhi

/-- A positive integer up to `2^64` converts to the double nearest it. -/
theorem stores_ofNat {n : ℕ} (h0 : 0 < n) (hn : n ≤ 2 ^ 64) : (Float.ofNat n).Stores (nearest n) := by
  rcases Nat.lt_or_ge n (2 ^ 53) with hlt | hge
  · -- exactly
    have hN := normal_mul_two_pow_sub_log2 h0 hlt
    rw [ofNat_of_lt_two_pow h0 hlt, nearest_natCast h0 hlt]
    exact ⟨_, _, _, hN, Model.unpack_pack_normal hN _, mul_two_pow_sub_log2_value n⟩
  · -- rounded: the mantissa is shifted up by 53 bits and rounded back
    have hexact : Accuracy.exact.Holds (n * 2 ^ 53) ((n : ℚ) / 2 ^ (-53 : ℤ)) := by
      show _ = _
      rw [zpow_neg, div_inv_eq_mul]
      push_cast
      rfl
    rw [ofNat_eq_roundWithAccuracy hge]
    exact stores_of_isNearest (roundWithAccuracy_nearest .positive
      (Nat.le_trans (by norm_num) (Nat.le_mul_of_pos_left _ (by omega))) hexact
      ((zpow_le_one_of_nonpos₀ (by norm_num) (by norm_num)).trans
        (by exact_mod_cast h0 : (1 : ℚ) ≤ n)))
      (by exact_mod_cast h0) (by exact_mod_cast hn)

end Float
