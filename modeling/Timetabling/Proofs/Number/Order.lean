import Mathlib

/-! # The order of floating-point numbers

Floats are compared as IEEE 754 says: `NaN` is unordered, the two zeros are equal, and the other
numbers are ordered by sign and then by exponent and mantissa. Lean's model of `Float` unpacks a
float and compares by exactly these cases (`Float.Model.UnpackedFloat.compare`), so the order
can be read off the model. Strict comparison is irreflexive and transitive, also through a weak
comparison that follows it, and implies the weak one; the weak one is reflexive on every float that
is a number, and `NaN` alone is not below or equal to itself. -/

namespace Float.Model.UnpackedFloat

/-- Finite numbers of one sign, ordered by exponent and then by mantissa. -/
theorem then_compare_lt_trans {e₁ e₂ e₃ : Int} {m₁ m₂ m₃ : Nat}
    (h₁ : (compare e₁ e₂).then (compare m₁ m₂) = .lt)
    (h₂ : (compare e₂ e₃).then (compare m₂ m₃) = .lt) :
    (compare e₁ e₃).then (compare m₁ m₃) = .lt := by
  simp only [Ordering.then_eq_lt, compare_lt_iff_lt, compare_eq_iff_eq] at h₁ h₂ ⊢
  omega

theorem then_compare_gt_trans {e₁ e₂ e₃ : Int} {m₁ m₂ m₃ : Nat}
    (h₁ : (compare e₁ e₂).then (compare m₁ m₂) = .gt)
    (h₂ : (compare e₂ e₃).then (compare m₂ m₃) = .gt) :
    (compare e₁ e₃).then (compare m₁ m₃) = .gt := by
  simp only [Ordering.then_eq_gt, compare_gt_iff_gt, compare_eq_iff_eq] at h₁ h₂ ⊢
  omega

theorem compare_lt_trans {x y z : UnpackedFloat} (h₁ : x.compare y = some .lt)
    (h₂ : y.compare z = some .lt) : x.compare z = some .lt := by
  -- every sign and kind of each of the three: only three finite numbers of one sign are
  -- compared by more than their kinds
  rcases x with ⟨_ | _⟩ | _ | ⟨_ | _⟩ | ⟨_ | _, m₁, e₁, _⟩ <;>
    rcases y with ⟨_ | _⟩ | _ | ⟨_ | _⟩ | ⟨_ | _, m₂, e₂, _⟩ <;>
    rcases z with ⟨_ | _⟩ | _ | ⟨_ | _⟩ | ⟨_ | _, m₃, e₃, _⟩ <;>
    simp_all [UnpackedFloat.compare]
  all_goals first
    | rfl
    | exact then_compare_lt_trans h₁ h₂
    | exact then_compare_gt_trans h₁ h₂

theorem then_compare_isLE_trans {e₁ e₂ e₃ : Int} {m₁ m₂ m₃ : Nat}
    (h₁ : ((compare e₁ e₂).then (compare m₁ m₂)).isLE)
    (h₂ : ((compare e₂ e₃).then (compare m₂ m₃)).isLE) :
    ((compare e₁ e₃).then (compare m₁ m₃)).isLE := by
  simp only [Ordering.isLE_iff_ne_gt, Ordering.then_eq_gt, compare_gt_iff_gt,
    compare_eq_iff_eq] at h₁ h₂ ⊢
  omega

theorem then_compare_isGE_trans {e₁ e₂ e₃ : Int} {m₁ m₂ m₃ : Nat}
    (h₁ : ((compare e₁ e₂).then (compare m₁ m₂)).isGE)
    (h₂ : ((compare e₂ e₃).then (compare m₂ m₃)).isGE) :
    ((compare e₁ e₃).then (compare m₁ m₃)).isGE := by
  simp only [Ordering.isGE_iff_ne_lt, Ordering.then_eq_lt, compare_lt_iff_lt,
    compare_eq_iff_eq] at h₁ h₂ ⊢
  omega

/-- Below or equal is transitive. -/
theorem compare_isLE_trans {x y z : UnpackedFloat} (h₁ : (x.compare y).any (·.isLE))
    (h₂ : (y.compare z).any (·.isLE)) : (x.compare z).any (·.isLE) := by
  rcases x with ⟨_ | _⟩ | _ | ⟨_ | _⟩ | ⟨_ | _, m₁, e₁, _⟩ <;>
    rcases y with ⟨_ | _⟩ | _ | ⟨_ | _⟩ | ⟨_ | _, m₂, e₂, _⟩ <;>
    rcases z with ⟨_ | _⟩ | _ | ⟨_ | _⟩ | ⟨_ | _, m₃, e₃, _⟩ <;>
    simp_all +decide [UnpackedFloat.compare]
  -- only three finite numbers of one sign are compared by more than their kinds and signs
  case finite.negative.finite.negative.finite.negative => exact then_compare_isGE_trans h₁ h₂
  case finite.positive.finite.positive.finite.positive => exact then_compare_isLE_trans h₁ h₂

/-- What is below a number is below every number equal to it. -/
theorem compare_lt_of_lt_of_eq {x y z : UnpackedFloat} (h₁ : x.compare y = some .lt)
    (h₂ : y.compare z = some .eq) : x.compare z = some .lt := by
  rcases x with ⟨_ | _⟩ | _ | ⟨_ | _⟩ | ⟨_ | _, m₁, e₁, _⟩ <;>
    rcases y with ⟨_ | _⟩ | _ | ⟨_ | _⟩ | ⟨_ | _, m₂, e₂, _⟩ <;>
    rcases z with ⟨_ | _⟩ | _ | ⟨_ | _⟩ | ⟨_ | _, m₃, e₃, _⟩ <;>
    simp_all [UnpackedFloat.compare]

/-- Nothing is below itself. -/
theorem compare_self_ne_lt (x : UnpackedFloat) : x.compare x ≠ some .lt := by
  rcases x with ⟨_ | _⟩ | _ | ⟨_ | _⟩ | ⟨_ | _, m, e, _⟩ <;>
    simp [UnpackedFloat.compare]

/-- A number is equal to itself. -/
theorem compare_self {x : UnpackedFloat} (h : x.isNaN = false) : x.compare x = some .eq := by
  rcases x with ⟨_ | _⟩ | _ | ⟨_ | _⟩ | ⟨_ | _, m, e, _⟩ <;>
    simp_all [UnpackedFloat.compare, UnpackedFloat.isNaN]
  all_goals rfl

end Float.Model.UnpackedFloat

namespace Float

open Float.Model

theorem lt_iff_compare (a b : Float) :
    a < b ↔ a.toModel.unpack.compare b.toModel.unpack = some .lt := by
  show a.lt b = true ↔ _
  unfold Float.lt
  simp only [decide_eq_true_eq]
  exact beq_iff_eq

theorem le_iff_compare (a b : Float) :
    a ≤ b ↔ (a.toModel.unpack.compare b.toModel.unpack).any (·.isLE) = true := by
  show a.le b = true ↔ _
  unfold Float.le
  simp only [decide_eq_true_eq]
  rfl

theorem lt_trans {a b c : Float} (h₁ : a < b) (h₂ : b < c) : a < c := by
  rw [lt_iff_compare] at h₁ h₂ ⊢
  exact UnpackedFloat.compare_lt_trans h₁ h₂

theorem lt_irrefl (a : Float) : ¬ a < a := by
  rw [lt_iff_compare]
  exact UnpackedFloat.compare_self_ne_lt _

theorem lt_of_lt_of_le {a b c : Float} (h₁ : a < b) (h₂ : b ≤ c) : a < c := by
  rw [lt_iff_compare] at h₁ ⊢
  rw [le_iff_compare] at h₂
  -- `b ≤ c` holds when `b` is below `c` or equal to it
  cases h : b.toModel.unpack.compare c.toModel.unpack with
  | none => simp [h] at h₂
  | some o =>
    cases o with
    | lt => exact UnpackedFloat.compare_lt_trans h₁ h
    | eq => exact UnpackedFloat.compare_lt_of_lt_of_eq h₁ h
    | gt => simp [h] at h₂

theorem le_trans {a b c : Float} (h₁ : a ≤ b) (h₂ : b ≤ c) : a ≤ c := by
  rw [le_iff_compare] at h₁ h₂ ⊢
  exact UnpackedFloat.compare_isLE_trans h₁ h₂

theorem le_of_lt {a b : Float} (h : a < b) : a ≤ b := by
  rw [lt_iff_compare] at h
  rw [le_iff_compare, h]
  rfl

/-- Every float but `NaN` is below or equal to itself. -/
theorem le_refl_of_isNaN {a : Float} (h : a.isNaN = false) : a ≤ a := by
  rw [le_iff_compare, UnpackedFloat.compare_self h]
  rfl

/-- A float that stayed as it was or grew is, when it is a number, at least where it started. -/
theorem le_of_eq_or_lt {a b : Float} (h : b = a ∨ a < b) (ha : a.isNaN = false) : a ≤ b := by
  rcases h with rfl | h
  · exact le_refl_of_isNaN ha
  · exact le_of_lt h

end Float
