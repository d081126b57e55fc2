import Timetabling.Number.Shortest

/-! # Machine integers

Converting a float to a 64-bit integer drops its fraction, rounding toward zero. A value outside
the 64-bit range, or not a number, becomes the smallest 64-bit integer, as the x86-64 conversion
instruction does. The integer part is read exactly off the float's bits.

Arithmetic on 64-bit integers wraps around: a result is kept modulo `2^64`. -/

namespace Timetabling

/-- The integer part of a float, rounded toward zero, for a 64-bit signed integer. -/
def truncToInt64 (x : Float) : Int :=
  if x.isNaN || x.isInf then -(Int.pow 2 63)
  else
    let (negative, m, e, _) := Decimal.binaryParts x
    let magnitude : Nat := if e ≥ 0 then m * Nat.pow 2 e.toNat else m / Nat.pow 2 (-e).toNat
    let v : Int := if negative then -(magnitude : Int) else magnitude
    if v < -(Int.pow 2 63) ∨ v ≥ Int.pow 2 63 then -(Int.pow 2 63) else v

/-- An integer wrapped into the signed 64-bit range, as machine arithmetic wraps a result that
overflows: the value congruent to it modulo `2^64` in `[-2^63, 2^63)`. -/
def wrapInt64 (v : Int) : Int :=
  (v + Int.pow 2 63) % Int.pow 2 64 - Int.pow 2 63

/-- The largest of two integers. -/
def maxInt (a b : Int) : Int := if a > b then a else b

end Timetabling
