import Mathlib
import Timetabling.Number.Truncate

/-! # Whole numbers in doubles

Lean's model of a double unpacks it into a sign, a mantissa and an exponent, and rounds every
operation's exact result back to 53 significant bits (`roundWithAccuracy`). This file reads that
model for the doubles that hold whole numbers.

A normal double packs and unpacks back to itself (`unpack_pack_normal`), and its bits are its
sign, biased exponent and mantissa (`toBits_pack_normal`), so the truncation to a 64-bit integer
reads its value off exactly (`truncToInt64_pack_normal`). Rounding keeps the leading 53 bits, or
carries into a 54th (`roundWithAccuracy_spec`); bits that are all zero are dropped exactly
(`roundWithAccuracy_exact`), so multiplying by a power of two only moves the exponent
(`ofModel_pack_mul_two_pow`).

An integer below `2^61` in magnitude converts to a double that holds a whole number of the same
sign, of magnitude at most `2^61` (`ofInt_smallWhole`): exactly below `2^53`, rounded above. Such
a double scaled by `2`, `0.5` or `1` truncates to twice, half (toward zero) or exactly its own
truncation (`truncToInt64_ofInt_mul_two`, `truncToInt64_ofInt_mul_half`,
`truncToInt64_ofInt_mul_one`). -/

namespace Float.Model.UnpackedFloat

/-- A mantissa and exponent that a double stores as a normal number: 53 significant bits, and a
biased exponent strictly between the all-zeros and all-ones patterns. -/
structure NormalParts (m : ℕ) (e : ℤ) : Prop where
  two_pow_le : 2 ^ 52 ≤ m
  lt_two_pow : m < 2 ^ 53
  exponent_ge : -1074 ≤ e
  exponent_le : e ≤ 971

variable {s : Sign} {m : ℕ} {e : ℤ}

theorem NormalParts.log2_eq (h : NormalParts m e) : m.log2 = 52 :=
  (Nat.log2_eq_iff (by have := h.two_pow_le; omega)).mpr ⟨h.two_pow_le, h.lt_two_pow⟩

theorem NormalParts.pos (h : NormalParts m e) : 0 < m := by
  have := h.two_pow_le; omega

theorem pack_normal (h : NormalParts m e) (hm : 0 < m) :
    pack Format.binary64 (.finite s m e hm) =
      packComponents Format.binary64 s (BitVec.ofNat 11 (e + 1075).toNat) (BitVec.ofNat 52 m) := by
  have := h.exponent_ge
  have := h.exponent_le
  simp only [pack, h.log2_eq, Format.exponentBias, Format.mantissaBits]
  rw [if_neg (by omega), if_pos trivial]
  congr 2
  norm_num
  omega

theorem unpack_pack_normal (h : NormalParts m e) (hm : 0 < m) :
    unpack Format.binary64 (pack Format.binary64 (.finite s m e hm)) = .finite s m e hm := by
  have := h.exponent_ge
  have := h.exponent_le
  have := h.two_pow_le
  have := h.lt_two_pow
  rw [pack_normal h hm]
  simp only [unpack, unpackMantissa_packComponents, unpackExponent_packComponents,
    unpackSign_packComponents, Sign.ofBitVec_toBitVec]
  rw [if_neg, if_neg]
  · congr 1
    · rw [BitVec.toNat_append, BitVec.toNat_ofNat, BitVec.toNat_ofNat,
        ← Nat.shiftLeft_add_eq_or_of_lt (Nat.mod_lt _ (by decide)), Nat.shiftLeft_eq]
      omega
    · simp [Format.exponentBias]
      omega
  -- the biased exponent is neither all ones nor all zeros
  all_goals
    intro hb
    have := congrArg BitVec.toNat hb
    simp at this
    omega

/-! ### Rounding -/

namespace ExtendedMantissa

theorem shiftRight_zero (em : ExtendedMantissa) : em >>> 0 = em := rfl

theorem shiftRight_succ (em : ExtendedMantissa) (n : ℕ) :
    em >>> (n + 1) = (em >>> n).shiftRightOne := rfl

theorem mantissa_shiftRight (em : ExtendedMantissa) (n : ℕ) :
    (em >>> n).mantissa = em.mantissa / 2 ^ n := by
  induction n with
  | zero => simp [shiftRight_zero]
  | succ n ih => simp only [shiftRight_succ, shiftRightOne, ih, Nat.pow_succ, Nat.div_div_eq_div_mul]

/-- Dropping zero bits loses nothing. -/
theorem shiftRight_exact (m n : ℕ) :
    (⟨m * 2 ^ n, false, false⟩ : ExtendedMantissa) >>> n = ⟨m, false, false⟩ := by
  induction n generalizing m with
  | zero => simp [shiftRight_zero]
  | succ n ih =>
    rw [shiftRight_succ, show m * 2 ^ (n + 1) = 2 * m * 2 ^ n by ring, ih]
    simp [shiftRightOne]

@[simp] theorem mantissa_ofMantissaAndAccuracy (m : ℕ) (acc : Accuracy) :
    (ofMantissaAndAccuracy m acc).mantissa = m := by
  unfold ofMantissaAndAccuracy
  split <;> rfl

/-- Rounding to nearest keeps the mantissa or adds one. -/
theorem roundedMantissa_mem (em : ExtendedMantissa) :
    em.mantissa ≤ em.roundedMantissa ∧ em.roundedMantissa ≤ em.mantissa + 1 := by
  rcases em with ⟨m, _ | _, _ | _⟩ <;> simp [roundedMantissa, accuracy, Accuracy.roundToNearestEven]
  -- an exact tie rounds to even: it adds the parity bit
  omega

end ExtendedMantissa

open ExtendedMantissa

/-- Shifting a mantissa of at least 53 bits to its target exponent drops the bits past the 53rd. -/
theorem shiftToTargetExponent_eq (acc : Accuracy) (hm : 2 ^ 52 ≤ m)
    (he : -1074 ≤ e + (m.log2 - 52 : ℕ)) :
    shiftToTargetExponent Format.binary64 m e acc =
      (ofMantissaAndAccuracy m acc >>> (m.log2 - 52), e + (m.log2 - 52 : ℕ)) := by
  have hlog : 52 ≤ m.log2 := (Nat.le_log2 (by omega)).mpr hm
  have ht : Format.binary64.targetExponent (totalExponent m e) - e = (m.log2 - 52 : ℕ) := by
    simp only [Format.targetExponent, totalExponent, Format.mantissaBits, Format.minExponent]
    omega
  simp only [shiftToTargetExponent, shiftToExponent, ht, Int.toNat_natCast]

/-- The leading 53 bits of a mantissa of at least 53 bits. -/
theorem leading_bits_mem (hm : 2 ^ 52 ≤ m) :
    2 ^ 52 ≤ m / 2 ^ (m.log2 - 52) ∧ m / 2 ^ (m.log2 - 52) < 2 ^ 53 := by
  have hlog : 52 ≤ m.log2 := (Nat.le_log2 (by omega)).mpr hm
  have hlo := Nat.log2_self_le (n := m) (by omega)
  have hhi := Nat.lt_log2_self (n := m)
  constructor
  · rw [Nat.le_div_iff_mul_le (Nat.two_pow_pos _), ← Nat.pow_add]
    calc 2 ^ (52 + (m.log2 - 52)) = 2 ^ m.log2 := by congr 1; omega
      _ ≤ m := hlo
  · rw [Nat.div_lt_iff_lt_mul (Nat.two_pow_pos _), ← Nat.pow_add]
    calc m < 2 ^ (m.log2 + 1) := hhi
      _ = 2 ^ (53 + (m.log2 - 52)) := by congr 1; omega

/-- A mantissa of at least 53 bits rounds to 53 bits: to its leading 53 bits rounded to nearest,
or, when that carries into a 54th bit, to `2^52` one exponent up. -/
theorem roundWithAccuracy_spec (s : Sign) (acc : Accuracy) (hm : 2 ^ 52 ≤ m)
    (he : -1074 ≤ e + (m.log2 - 52 : ℕ)) :
    ∃ M E hM, roundWithAccuracy Format.binary64 s m e acc = .finite s M E hM ∧
      2 ^ 52 ≤ M ∧ M < 2 ^ 53 ∧
      ((M = (ofMantissaAndAccuracy m acc >>> (m.log2 - 52)).roundedMantissa ∧
          E = e + (m.log2 - 52 : ℕ)) ∨
        ((ofMantissaAndAccuracy m acc >>> (m.log2 - 52)).roundedMantissa = 2 ^ 53 ∧ M = 2 ^ 52 ∧
          E = e + (m.log2 - 52 : ℕ) + 1)) := by
  have hlog : 52 ≤ m.log2 := (Nat.le_log2 (by omega)).mpr hm
  have hlead := leading_bits_mem hm
  have hr := roundedMantissa_mem (ofMantissaAndAccuracy m acc >>> (m.log2 - 52))
  rw [mantissa_shiftRight, mantissa_ofMantissaAndAccuracy] at hr
  unfold roundWithAccuracy
  rw [shiftToTargetExponent_eq acc hm he]
  dsimp only
  generalize (ofMantissaAndAccuracy m acc >>> (m.log2 - 52)).roundedMantissa = r at hr ⊢
  rcases Nat.lt_or_ge r (2 ^ 53) with hlt | hge
  · -- no carry: the second shift drops nothing
    have hrlog : r.log2 = 52 := (Nat.log2_eq_iff (by omega)).mpr ⟨by omega, hlt⟩
    have hsh : ofMantissaAndAccuracy r .exact >>> (r.log2 - 52) = ⟨r, false, false⟩ := by
      rw [hrlog]
      rfl
    rw [shiftToTargetExponent_eq .exact (by omega) (by omega)]
    simp only [hsh]
    rw [dif_neg (by omega)]
    exact ⟨r, _, by omega, rfl, by omega, hlt, .inl ⟨rfl, by simp [hrlog]⟩⟩
  · -- a carry: `2^53` becomes `2^52` one exponent up
    obtain rfl : r = 2 ^ 53 := by omega
    have hsh : ofMantissaAndAccuracy (2 ^ 53) .exact >>> 1 = ⟨2 ^ 52, false, false⟩ := by
      rw [show ofMantissaAndAccuracy (2 ^ 53) .exact = ⟨2 ^ 52 * 2 ^ 1, false, false⟩ from rfl]
      exact shiftRight_exact (2 ^ 52) 1
    rw [shiftToTargetExponent_eq .exact (by omega) (by rw [Nat.log2_two_pow]; omega)]
    simp only [Nat.log2_two_pow, show (53 - 52 : ℕ) = 1 from rfl, hsh]
    rw [dif_neg (by omega)]
    exact ⟨2 ^ 52, _, by omega, rfl, by omega, by omega, .inr ⟨trivial, rfl, by push_cast; ring⟩⟩

@[simp] theorem roundedMantissa_exact (m : ℕ) :
    (⟨m, false, false⟩ : ExtendedMantissa).roundedMantissa = m := by
  simp [roundedMantissa, accuracy, Accuracy.roundToNearestEven]

theorem log2_mul_two_pow {n : ℕ} (k : ℕ) (hn : n ≠ 0) : (n * 2 ^ k).log2 = n.log2 + k := by
  induction k with
  | zero => simp
  | succ k ih =>
    rw [Nat.pow_succ, ← Nat.mul_assoc, Nat.mul_comm _ 2, Nat.log2_two_mul (Nat.mul_pos (by omega) (Nat.two_pow_pos k)).ne', ih]
    omega

/-- A mantissa whose bits past the 53rd are zero rounds to its leading 53 bits, exactly. -/
theorem roundWithAccuracy_exact (s : Sign) {M : ℕ} (k : ℕ) (hM₁ : 2 ^ 52 ≤ M) (hM₂ : M < 2 ^ 53)
    (he : -1074 ≤ e + k) :
    roundWithAccuracy Format.binary64 s (M * 2 ^ k) e .exact =
      .finite s M (e + k) (by omega) := by
  have hlog : (M * 2 ^ k).log2 = 52 + k := by
    rw [log2_mul_two_pow k (by omega), (Nat.log2_eq_iff (by omega)).mpr ⟨hM₁, hM₂⟩]
  have hsh : ofMantissaAndAccuracy (M * 2 ^ k) .exact >>> ((M * 2 ^ k).log2 - 52) =
      ⟨M, false, false⟩ := by
    rw [hlog, show 52 + k - 52 = k by omega]
    exact shiftRight_exact M k
  obtain ⟨M', E', hM', hround, -, -, hcase⟩ := roundWithAccuracy_spec (e := e) s .exact
    (Nat.le_trans hM₁ (Nat.le_mul_of_pos_right _ (Nat.two_pow_pos k))) (by rw [hlog]; omega)
  rw [hsh, roundedMantissa_exact, hlog, show 52 + k - 52 = k by omega] at hcase
  rcases hcase with ⟨rfl, rfl⟩ | ⟨hcarry, -, -⟩
  · exact hround
  · omega

/-- Multiplying by a power of two, stored as `2^52 · 2^f`, only moves the exponent while the
product stays normal. -/
theorem mul_finite_two_pow (hm : 0 < m) {f : ℤ} (hp : 0 < 2 ^ 52) (h : NormalParts m (e + f + 52)) :
    mul Format.binary64 (.finite s m e hm) (.finite .positive (2 ^ 52) f hp) =
      .finite s m (e + f + 52) hm := by
  have := h.exponent_ge
  have hs : s * Sign.positive = s := by cases s <;> rfl
  simp only [mul, hs]
  exact roundWithAccuracy_exact s 52 h.two_pow_le h.lt_two_pow (by omega)

/-- A positive integer of at most 53 bits, shifted up to exactly 53 bits. -/
theorem normal_mul_two_pow_sub_log2 {n : ℕ} (h0 : 0 < n) (hn : n < 2 ^ 53) :
    NormalParts (n * 2 ^ (52 - n.log2)) (-(52 - n.log2 : ℕ)) := by
  have hlog : n.log2 < 53 := (Nat.log2_lt (by omega)).mpr hn
  have hlo : 2 ^ n.log2 ≤ n := Nat.log2_self_le (by omega)
  have hhi : n < 2 ^ (n.log2 + 1) := Nat.lt_log2_self
  refine ⟨?_, ?_, by omega, by omega⟩
  · calc 2 ^ 52 = 2 ^ n.log2 * 2 ^ (52 - n.log2) := by rw [← Nat.pow_add]; congr 1; omega
      _ ≤ n * 2 ^ (52 - n.log2) := Nat.mul_le_mul_right _ hlo
  · calc n * 2 ^ (52 - n.log2) < 2 ^ (n.log2 + 1) * 2 ^ (52 - n.log2) :=
          Nat.mul_lt_mul_of_pos_right hhi (Nat.two_pow_pos _)
      _ = 2 ^ 53 := by rw [← Nat.pow_add]; congr 1; omega

/-- A positive integer of at most 53 bits is rounded to itself: its mantissa is shifted up to 53
bits and the exponent down to match. -/
theorem round_of_lt_two_pow (s : Sign) {n : ℕ} (h0 : 0 < n) (hn : n < 2 ^ 53) :
    round Format.binary64 s n 0 =
      .finite s (n * 2 ^ (52 - n.log2)) (-(52 - n.log2 : ℕ)) (Nat.mul_pos h0 (Nat.two_pow_pos _)) := by
  have hN := normal_mul_two_pow_sub_log2 h0 hn
  have hlog : n.log2 < 53 := (Nat.log2_lt (by omega)).mpr hn
  have ht : Format.binary64.targetExponent (totalExponent n 0) = -(52 - n.log2 : ℕ) := by
    simp only [Format.targetExponent, totalExponent, Format.mantissaBits, Format.minExponent]
    omega
  have hexact := roundWithAccuracy_exact s 0 hN.two_pow_le hN.lt_two_pow
    (e := -(52 - n.log2 : ℕ)) (by omega)
  rw [Nat.pow_zero, Nat.mul_one] at hexact
  unfold round decreaseExponent
  simp only [ht, Nat.shiftLeft_eq]
  rw [show (0 - -((52 - n.log2 : ℕ) : ℤ)).toNat = 52 - n.log2 by omega, Int.zero_sub, hexact]
  congr 1
  omega

end Float.Model.UnpackedFloat

namespace Float.Model

open UnpackedFloat

variable {s : Sign} {m : ℕ} {e : ℤ}

theorem unpack_pack_normal (h : NormalParts m e) (hm : 0 < m) :
    (pack (.finite s m e hm)).unpack = .finite s m e hm := by
  simp [unpack, pack, UnpackedFloat.unpack_pack_normal h hm]

/-- Multiplying a normal double by a power of two, stored as `2^52 · 2^f`, keeps its mantissa
and moves its exponent while the product stays normal. -/
theorem ofModel_pack_mul_two_pow {f e' : ℤ} (h : NormalParts m e) (h' : NormalParts m e')
    (he : e + f + 52 = e') (c : Float) (hp : 0 < 2 ^ 52)
    (hc : c.toModel.unpack = .finite .positive (2 ^ 52) f hp) :
    Float.ofModel (pack (.finite s m e hm)) * c = Float.ofModel (pack (.finite s m e' hm)) := by
  subst he
  show Float.ofModel (pack (UnpackedFloat.mul Format.binary64
    (pack (.finite s m e hm)).unpack c.toModel.unpack)) = _
  rw [unpack_pack_normal h hm, hc, mul_finite_two_pow hm hp h']

theorem neg_ofModel_pack (h : NormalParts m e) (hm : 0 < m) :
    Float.neg (Float.ofModel (pack (.finite s m e hm))) =
      Float.ofModel (pack (.finite (-s) m e hm)) := by
  show Float.ofModel (pack (pack (.finite s m e hm)).unpack.neg) = _
  rw [unpack_pack_normal h hm]
  rfl

/-- The unit among the exact powers of ten that decimal conversion multiplies by. -/
theorem unpack_powerOfTen_zero (h : 0 < Float.exactlyRepresentablePowersOfTen.size) :
    (getElem Float.exactlyRepresentablePowersOfTen 0 h).toModel.unpack =
      .finite .positive (2 ^ 52) (-52) (Nat.two_pow_pos 52) := by
  -- with a closed bound the lookup evaluates
  rw [show getElem Float.exactlyRepresentablePowersOfTen 0 h =
    getElem Float.exactlyRepresentablePowersOfTen 0 (by decide) from rfl]
  rfl

/-- Integers of at most 53 bits convert exactly. -/
theorem ofNat_of_lt_two_pow {n : ℕ} (h0 : 0 < n) (hn : n < 2 ^ 53) :
    Float.ofNat n = Float.ofModel (pack (.finite .positive (n * 2 ^ (52 - n.log2))
      (-(52 - n.log2 : ℕ)) (Nat.mul_pos h0 (Nat.two_pow_pos _)))) := by
  have hN := normal_mul_two_pow_sub_log2 h0 hn
  have htoFloat : n.toUInt64.toFloat = Float.ofModel (pack (.finite .positive
      (n * 2 ^ (52 - n.log2)) (-(52 - n.log2 : ℕ)) (Nat.mul_pos h0 (Nat.two_pow_pos _)))) := by
    have hn64 : n.toUInt64.toNat = n := by simp; omega
    show Float.ofModel (pack (UnpackedFloat.ofNat Format.binary64 n.toUInt64.toNat)) = _
    rw [hn64]
    simp only [UnpackedFloat.ofNat, UnpackedFloat.ofInt, UnpackedFloat.normalize]
    rw [Int.compare_eq_gt.mpr (by omega), Int.toNat_natCast,
      round_of_lt_two_pow .positive h0 hn]
  show Float.ofScientific n false 0 = _
  unfold Float.ofScientific
  rw [dif_pos ⟨hn, by decide⟩]
  simp only [Bool.false_eq_true, if_false, htoFloat]
  exact ofModel_pack_mul_two_pow (f := -52) hN hN (by omega) _ (Nat.two_pow_pos 52)
    (unpack_powerOfTen_zero _)

/-- Integers of more than 53 bits convert as their product by `2^53` at exponent `-53`, rounded. -/
theorem ofNat_eq_roundWithAccuracy {n : ℕ} (hn : 2 ^ 53 ≤ n) :
    Float.ofNat n = Float.ofModel (pack
      (roundWithAccuracy Format.binary64 .positive (n * 2 ^ 53) (-53) .exact)) := by
  have hlog : 53 ≤ n.log2 := (Nat.le_log2 (by omega)).mpr hn
  show Float.ofScientific n false 0 = _
  unfold Float.ofScientific
  rw [dif_neg (by omega)]
  simp only [Bool.false_eq_true, if_false]
  congr 1
  show pack (UnpackedFloat.ofScientific Format.binary64 n (Int.ofNat 0)) = _
  unfold UnpackedFloat.ofScientific
  rw [dif_neg (by omega), if_neg (by decide),
    if_neg (by show ¬ (0 : ℤ) < -(2048 + (n.log2 : ℤ)); omega), if_pos (by decide)]
  have hmant : n <<< Format.binary64.mantissaBits * 10 ^ (Int.ofNat 0).toNat = n * 2 ^ 53 := by
    simp [Nat.shiftLeft_eq, Format.mantissaBits]
  have hexp : -(Format.binary64.mantissaBits : ℤ) + 0 = -53 := by decide
  simp only [UnpackedFloat.mul]
  rw [hmant, hexp]
  rfl

/-- Integers of more than 53 bits and below `2^61` convert to a normal double with a positive
exponent, of at most the next power of two. -/
theorem ofNat_of_two_pow_le {n : ℕ} (hn : 2 ^ 53 ≤ n) (hn' : n < 2 ^ 61) :
    ∃ M E hM, Float.ofNat n = Float.ofModel (pack (.finite .positive M E hM)) ∧ NormalParts M E ∧
      1 ≤ E ∧ M * 2 ^ E.toNat ≤ 2 ^ (n.log2 + 1) := by
  have hlog₁ : 53 ≤ n.log2 := (Nat.le_log2 (by omega)).mpr hn
  have hlog₂ : n.log2 < 61 := (Nat.log2_lt (by omega)).mpr hn'
  have hlog : (n * 2 ^ 53).log2 = n.log2 + 53 := log2_mul_two_pow 53 (by omega)
  obtain ⟨M, E, hM, hround, hM₁, hM₂, hcase⟩ := roundWithAccuracy_spec (m := n * 2 ^ 53)
    (e := -53) .positive .exact
    (Nat.le_trans (by omega) (Nat.le_mul_of_pos_right n (Nat.two_pow_pos 53))) (by rw [hlog]; omega)
  rw [hlog] at hcase
  have hE : (E = (n.log2 - 52 : ℕ) ∧ M < 2 ^ 53) ∨ (E = (n.log2 - 51 : ℕ) ∧ M = 2 ^ 52) := by
    omega
  refine ⟨M, E, hM, ?_, ⟨hM₁, hM₂, by omega, by omega⟩, by omega, ?_⟩
  · rw [ofNat_eq_roundWithAccuracy hn, hround]
  · rcases hE with ⟨rfl, hlt⟩ | ⟨rfl, rfl⟩
    · calc M * 2 ^ ((n.log2 - 52 : ℕ) : ℤ).toNat ≤ 2 ^ 53 * 2 ^ (n.log2 - 52) := by
            rw [Int.toNat_natCast]; exact Nat.mul_le_mul_right _ hlt.le
        _ = 2 ^ (n.log2 + 1) := by rw [← Nat.pow_add]; congr 1; omega
    · rw [Int.toNat_natCast, ← Nat.pow_add]
      exact Nat.pow_le_pow_right (by decide) (by omega)

/-- The bits of a normal double: the sign bit, the biased exponent, and the mantissa without its
leading bit. -/
theorem toBits_pack_normal (h : NormalParts m e) (hm : 0 < m) :
    (pack (.finite s m e hm)).toBits.toNat =
      (match s with | .negative => 2 ^ 63 | .positive => 0) + (e + 1075).toNat * 2 ^ 52 +
        (m - 2 ^ 52) := by
  have := h.exponent_ge
  have := h.exponent_le
  have := h.two_pow_le
  have := h.lt_two_pow
  simp only [pack, UnpackedFloat.pack_normal h hm, packComponents, UInt64.toNat_ofBitVec,
    BitVec.toNat_append, BitVec.toNat_ofNat]
  rw [← Nat.shiftLeft_add_eq_or_of_lt (Nat.mod_lt (e + 1075).toNat (by decide : 2 ^ 11 > 0)),
    ← Nat.shiftLeft_add_eq_or_of_lt (Nat.mod_lt m (by decide : 2 ^ 52 > 0)), Nat.shiftLeft_eq,
    Nat.shiftLeft_eq]
  cases s <;> simp [Sign.toBitVec] <;> omega

end Float.Model

namespace Timetabling

open Float.Model UnpackedFloat

variable {s : Sign} {m : ℕ} {e : ℤ}

/-- The size of the integer part of `m · 2^e`. -/
def magnitude (m : ℕ) (e : ℤ) : ℕ :=
  if 0 ≤ e then m * 2 ^ e.toNat else m / 2 ^ (-e).toNat

/-- The parts a double's bits are read into, for a normal double. -/
theorem binaryParts_eq {x : Float} {neg : Bool} {b f : ℕ} (hb₁ : 1 ≤ b) (hb₂ : b < 2048)
    (hf : f < 2 ^ 52) (hx : x.toBits.toNat = (if neg then 2 ^ 63 else 0) + b * 2 ^ 52 + f) :
    Decimal.binaryParts x = (neg, f + 2 ^ 52, (b : ℤ) - 1075, decide (f = 0 ∧ b > 1)) := by
  have hbiased : x.toBits.toNat / 2 ^ 52 % 2048 = b := by
    rw [hx]
    cases neg <;> simp <;> omega
  have hfraction : x.toBits.toNat % 2 ^ 52 = f := by
    rw [hx]
    cases neg <;> simp <;> omega
  have hneg : decide (x.toBits.toNat ≥ 2 ^ 63) = neg := by
    rw [hx]
    cases neg <;> simp <;> omega
  unfold Decimal.binaryParts
  simp only [Nat.pow_eq, hbiased, hfraction, hneg]
  rw [if_neg (by omega)]

theorem truncToInt64_pack_normal (h : NormalParts m e) (hm : 0 < m) (hlt : magnitude m e < 2 ^ 63) :
    truncToInt64 (Float.ofModel (Float.Model.pack (.finite s m e hm))) = s.apply (magnitude m e) := by
  have hunpack := Float.Model.unpack_pack_normal (s := s) h hm
  have := h.exponent_ge
  have := h.exponent_le
  have := h.two_pow_le
  have := h.lt_two_pow
  have hparts : Decimal.binaryParts (Float.ofModel (Float.Model.pack (.finite s m e hm))) =
      (s == .negative, m, e, decide (m - 2 ^ 52 = 0 ∧ (e + 1075).toNat > 1)) := by
    rw [binaryParts_eq (b := (e + 1075).toNat) (f := m - 2 ^ 52) (by omega) (by omega) (by omega)]
    · obtain ⟨hm', he'⟩ : m - 2 ^ 52 + 2 ^ 52 = m ∧ (((e + 1075).toNat : ℕ) : ℤ) - 1075 = e :=
        ⟨by omega, by omega⟩
      rw [hm', he']
    · rw [Float.toBits, Float.Model.toBits_pack_normal h hm]
      cases s <;> rfl
  unfold truncToInt64
  simp only [Float.isNaN, Float.isInf, Float.Model.isNaN, Float.Model.isInf, hunpack,
    UnpackedFloat.isNaN, UnpackedFloat.isInf, Bool.or_false, Bool.false_eq_true, if_false, hparts]
  have hmag : (if e ≥ 0 then m * Nat.pow 2 e.toNat else m / Nat.pow 2 (-e).toNat) = magnitude m e := by
    simp [magnitude, Nat.pow_eq]
  rw [hmag]
  -- the value is in range, so only the sign is applied
  cases s <;> (simp [Sign.apply]; omega)

theorem magnitude_of_nonneg (he : 0 ≤ e) : magnitude m e = m * 2 ^ e.toNat := if_pos he

theorem magnitude_of_nonpos (he : e ≤ 0) : magnitude m e = m / 2 ^ (-e).toNat := by
  unfold magnitude
  split_ifs with h
  · obtain rfl : e = 0 := by omega
    simp
  · rfl

/-- One exponent up doubles the whole part, when no bit below the units is lost. -/
theorem magnitude_add_one (hint : e < 0 → 2 ^ (-e).toNat ∣ m) :
    magnitude m (e + 1) = 2 * magnitude m e := by
  by_cases he : 0 ≤ e
  · rw [magnitude_of_nonneg he, magnitude_of_nonneg (by omega),
      show (e + 1).toNat = e.toNat + 1 by omega, Nat.pow_succ]
    ring
  · obtain ⟨q, hq⟩ := hint (by omega)
    have hk : (-e).toNat = (-(e + 1)).toNat + 1 := by omega
    have hup : 2 ^ ((-(e + 1)).toNat + 1) * q / 2 ^ (-(e + 1)).toNat = 2 * q := by
      rw [Nat.pow_succ, Nat.mul_assoc, Nat.mul_div_cancel_left _ (Nat.two_pow_pos _)]
    rw [magnitude_of_nonpos (by omega), magnitude_of_nonpos (by omega), hq, hk, hup,
      Nat.mul_div_cancel_left _ (Nat.two_pow_pos _)]

/-- One exponent down halves the whole part, dropping the remainder. -/
theorem magnitude_sub_one : magnitude m (e - 1) = magnitude m e / 2 := by
  by_cases he : 0 < e
  · rw [magnitude_of_nonneg (by omega), magnitude_of_nonneg (by omega),
      show e.toNat = (e - 1).toNat + 1 by omega, Nat.pow_succ, ← Nat.mul_assoc,
      Nat.mul_div_cancel _ (by decide)]
  · rw [magnitude_of_nonpos (by omega), magnitude_of_nonpos (by omega),
      show (-(e - 1)).toNat = (-e).toNat + 1 by omega, Nat.pow_succ, Nat.div_div_eq_div_mul]

/-- A normal double holding a whole number of magnitude at most `2^61`: it has no bits below the
units, and doubling it stays within 64-bit integers. -/
structure SmallWhole (m : ℕ) (e : ℤ) : Prop where
  normal : NormalParts m e
  integral : e < 0 → 2 ^ (-e).toNat ∣ m
  magnitude_le : magnitude m e ≤ 2 ^ 61

namespace SmallWhole

theorem exponent_ge (h : SmallWhole m e) : -52 ≤ e := by
  by_contra hlt
  have hle := Nat.le_of_dvd h.normal.pos (h.integral (by omega))
  have hpow : 2 ^ 53 ≤ 2 ^ (-e).toNat := Nat.pow_le_pow_right (by decide) (by omega)
  have := h.normal.lt_two_pow
  omega

theorem exponent_le (h : SmallWhole m e) : e ≤ 9 := by
  by_contra hlt
  have hmag := h.magnitude_le
  rw [magnitude_of_nonneg (by omega)] at hmag
  have hpow : 2 ^ 10 ≤ 2 ^ e.toNat := Nat.pow_le_pow_right (by decide) (by omega)
  have := Nat.mul_le_mul h.normal.two_pow_le hpow
  omega

theorem one_le_magnitude (h : SmallWhole m e) : 1 ≤ magnitude m e := by
  have := h.normal.two_pow_le
  by_cases he : 0 ≤ e
  · rw [magnitude_of_nonneg he]
    exact Nat.mul_pos (by omega) (Nat.two_pow_pos _)
  · rw [magnitude_of_nonpos (by omega)]
    have hpow : 2 ^ (-e).toNat ≤ 2 ^ 52 := Nat.pow_le_pow_right (by decide) (by have := h.exponent_ge; omega)
    exact Nat.div_pos (by omega) (Nat.two_pow_pos _)

/-- The same mantissa one exponent up or down is still normal. -/
theorem normal_near (h : SmallWhole m e) (e' : ℤ) (h₁ : e - 1 ≤ e') (h₂ : e' ≤ e + 1) :
    NormalParts m e' :=
  ⟨h.normal.two_pow_le, h.normal.lt_two_pow, by have := h.exponent_ge; omega,
    by have := h.exponent_le; omega⟩

theorem truncToInt64_eq (h : SmallWhole m e) (hm : 0 < m) :
    truncToInt64 (Float.ofModel (pack (.finite s m e hm))) = s.apply (magnitude m e) :=
  truncToInt64_pack_normal h.normal hm (by have := h.magnitude_le; omega)

theorem truncToInt64_mul_two (h : SmallWhole m e) (hm : 0 < m) :
    truncToInt64 (Float.ofModel (pack (.finite s m e hm)) * 2) =
      2 * truncToInt64 (Float.ofModel (pack (.finite s m e hm))) := by
  have hN := h.normal_near (e + 1) (by omega) le_rfl
  have hdouble := magnitude_add_one h.integral
  have := h.magnitude_le
  rw [ofModel_pack_mul_two_pow (f := -51) h.normal hN (by ring) 2 (Nat.two_pow_pos 52) rfl,
    truncToInt64_pack_normal hN hm (by omega), h.truncToInt64_eq, hdouble]
  cases s <;> simp [Sign.apply]

theorem truncToInt64_mul_half (h : SmallWhole m e) (hm : 0 < m) :
    truncToInt64 (Float.ofModel (pack (.finite s m e hm)) * 0.5) =
      (truncToInt64 (Float.ofModel (pack (.finite s m e hm)))).tdiv 2 := by
  have hN := h.normal_near (e - 1) le_rfl (by omega)
  have hhalf := magnitude_sub_one (m := m) (e := e)
  have := h.magnitude_le
  rw [ofModel_pack_mul_two_pow (f := -53) h.normal hN (by ring) 0.5 (Nat.two_pow_pos 52) rfl,
    truncToInt64_pack_normal hN hm (by omega), h.truncToInt64_eq, magnitude_sub_one]
  cases s <;> simp [Sign.apply]

theorem truncToInt64_mul_one (h : SmallWhole m e) (hm : 0 < m) :
    truncToInt64 (Float.ofModel (pack (.finite s m e hm)) * 1) =
      truncToInt64 (Float.ofModel (pack (.finite s m e hm))) := by
  rw [ofModel_pack_mul_two_pow (f := -52) h.normal h.normal (by ring) 1 (Nat.two_pow_pos 52) rfl]

end SmallWhole

/-- Every positive integer below `2^61` converts to a double holding a whole number. -/
theorem ofNat_smallWhole {n : ℕ} (h0 : 0 < n) (hn : n < 2 ^ 61) :
    ∃ M E hM, Float.ofNat n = Float.ofModel (pack (.finite .positive M E hM)) ∧
      SmallWhole M E := by
  rcases Nat.lt_or_ge n (2 ^ 53) with hlt | hge
  · -- exact: the magnitude is `n` itself
    refine ⟨_, _, _, ofNat_of_lt_two_pow h0 hlt, ⟨normal_mul_two_pow_sub_log2 h0 hlt, ?_, ?_⟩⟩
    · intro _
      rw [Int.neg_neg, Int.toNat_natCast]
      exact Dvd.intro_left _ rfl
    · rw [magnitude_of_nonpos (by omega), Int.neg_neg, Int.toNat_natCast,
        Nat.mul_div_cancel _ (Nat.two_pow_pos _)]
      omega
  · -- rounded: the magnitude is at most the next power of two
    obtain ⟨M, E, hM, heq, hN, hE, hle⟩ := ofNat_of_two_pow_le hge hn
    have hlog : n.log2 < 61 := (Nat.log2_lt (by omega)).mpr hn
    refine ⟨M, E, hM, heq, ⟨hN, fun h ↦ absurd h (by omega), ?_⟩⟩
    rw [magnitude_of_nonneg (by omega)]
    calc M * 2 ^ E.toNat ≤ 2 ^ (n.log2 + 1) := hle
      _ ≤ 2 ^ 61 := Nat.pow_le_pow_right (by decide) (by omega)

/-- Every nonzero integer below `2^61` in magnitude converts to a double holding a whole number
of its sign. -/
theorem ofInt_smallWhole {v : ℤ} (h0 : v ≠ 0) (hv : v.natAbs < 2 ^ 61) :
    ∃ s M E hM, Float.ofInt v = Float.ofModel (pack (.finite s M E hM)) ∧ SmallWhole M E ∧
      (s = .negative ↔ v < 0) := by
  cases v with
  | ofNat n =>
    obtain ⟨M, E, hM, heq, hw⟩ := ofNat_smallWhole (n := n)
      (Nat.pos_of_ne_zero fun hn ↦ h0 (by rw [hn]; rfl)) (by simpa using hv)
    exact ⟨.positive, M, E, hM, heq, hw, ⟨fun h ↦ (nomatch h),
      fun h ↦ absurd h (by simp only [Int.ofNat_eq_natCast]; omega)⟩⟩
  | negSucc n =>
    obtain ⟨M, E, hM, heq, hw⟩ := ofNat_smallWhole (n := n + 1) (by omega) (by simpa using hv)
    refine ⟨.negative, M, E, hM, ?_, hw, ⟨fun _ ↦ Int.negSucc_lt_zero n, fun _ ↦ rfl⟩⟩
    show Float.neg (Float.ofNat (n + 1)) = _
    rw [heq, neg_ofModel_pack hw.normal hM]
    rfl

/-! ### Integers scaled by a power of two

Below `2^61` in magnitude, an integer taken to a double and multiplied by `2`, `0.5` or `1`
truncates back to twice, half (toward zero) or exactly the truncation of the unscaled double,
which keeps the integer's sign. -/

/-- A property of the doubles of integers below `2^61` holds once it holds of the double of zero
and of every normal double that holds a small whole number. -/
theorem ofInt_cases_smallWhole {P : Float → Prop} (v : ℤ) (hv : v.natAbs < 2 ^ 61)
    (zero : P (Float.ofInt 0))
    (whole : ∀ s M E (hM : 0 < M), SmallWhole M E → P (Float.ofModel (pack (.finite s M E hM)))) :
    P (Float.ofInt v) := by
  rcases eq_or_ne v 0 with rfl | h0
  · exact zero
  · obtain ⟨s, M, E, hM, heq, hw, -⟩ := ofInt_smallWhole h0 hv
    rw [heq]
    exact whole s M E hM hw

theorem truncToInt64_ofInt_mul_two (v : ℤ) (hv : v.natAbs < 2 ^ 61) :
    truncToInt64 (Float.ofInt v * 2) = 2 * truncToInt64 (Float.ofInt v) :=
  ofInt_cases_smallWhole (P := fun x ↦ truncToInt64 (x * 2) = 2 * truncToInt64 x) v hv
    (by decide +kernel) fun _ _ _ hM hw ↦ hw.truncToInt64_mul_two hM

theorem truncToInt64_ofInt_mul_half (v : ℤ) (hv : v.natAbs < 2 ^ 61) :
    truncToInt64 (Float.ofInt v * 0.5) = (truncToInt64 (Float.ofInt v)).tdiv 2 :=
  ofInt_cases_smallWhole (P := fun x ↦ truncToInt64 (x * 0.5) = (truncToInt64 x).tdiv 2) v hv
    (by decide +kernel) fun _ _ _ hM hw ↦ hw.truncToInt64_mul_half hM

theorem truncToInt64_ofInt_mul_one (v : ℤ) (hv : v.natAbs < 2 ^ 61) :
    truncToInt64 (Float.ofInt v * 1) = truncToInt64 (Float.ofInt v) :=
  ofInt_cases_smallWhole (P := fun x ↦ truncToInt64 (x * 1) = truncToInt64 x) v hv
    (by decide +kernel) fun _ _ _ hM hw ↦ hw.truncToInt64_mul_one hM

theorem sign_truncToInt64_ofInt (v : ℤ) (hv : v.natAbs < 2 ^ 61) :
    (truncToInt64 (Float.ofInt v)).sign = v.sign := by
  rcases eq_or_ne v 0 with rfl | h0
  · decide +kernel
  · obtain ⟨s, M, E, hM, heq, hw, hs⟩ := ofInt_smallWhole h0 hv
    have hpos := hw.one_le_magnitude
    rw [heq, hw.truncToInt64_eq]
    cases s with
    | negative =>
      rw [Int.sign_eq_neg_one_of_neg (hs.mp rfl)]
      exact Int.sign_eq_neg_one_of_neg (by simp only [Sign.apply]; omega)
    | positive =>
      have hnonneg : ¬ v < 0 := fun h ↦ nomatch hs.mpr h
      have hsign : v.sign = 1 := Int.sign_eq_one_of_pos (by omega)
      rw [hsign]
      exact Int.sign_eq_one_of_pos (by simp only [Sign.apply]; omega)

theorem truncToInt64_ofInt_nonneg_iff (v : ℤ) (hv : v.natAbs < 2 ^ 61) :
    0 ≤ truncToInt64 (Float.ofInt v) ↔ 0 ≤ v := by
  rw [← Int.sign_nonneg_iff, sign_truncToInt64_ofInt v hv, Int.sign_nonneg_iff]

theorem natAbs_truncToInt64_ofInt_le (v : ℤ) (hv : v.natAbs < 2 ^ 61) :
    (truncToInt64 (Float.ofInt v)).natAbs ≤ 2 ^ 61 := by
  refine ofInt_cases_smallWhole (P := fun x ↦ (truncToInt64 x).natAbs ≤ 2 ^ 61) v hv
    (by decide +kernel) fun s _ _ hM hw ↦ ?_
  have := hw.magnitude_le
  rw [hw.truncToInt64_eq]
  cases s <;> simpa [Sign.apply] using this

end Timetabling
