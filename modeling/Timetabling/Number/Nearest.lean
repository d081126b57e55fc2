/-! # The nearest double

Reading a number rounds it to the nearest double, a tie going to the even significand. The
number arrives here as an exact ratio of natural numbers and the double is assembled from its
bits, so nothing is rounded twice. A value that rounds to `2^1024` or beyond has no double: it
overflows. A value below half the smallest subnormal rounds to zero. -/

namespace Timetabling

namespace Nearest

/-- The numerator and denominator of `num / (den · 2^k)`. -/
def scaled (num den : Nat) (k : Int) : Nat × Nat :=
  if k ≥ 0 then (num, den * Nat.pow 2 k.toNat) else (num * Nat.pow 2 (-k).toNat, den)

/-- The quotient `n / d` rounded to the nearest natural number, a tie going to the even one. -/
def roundHalfEven (n d : Nat) : Nat :=
  let q := n / d
  let r := n % d
  if 2 * r > d || (2 * r == d && q % 2 == 1) then q + 1 else q

/-- The bits of the positive double nearest to `num / den`, for positive `num` and `den`, or
`none` when the value overflows. The significand `q` is chosen with `2^52 ≤ q < 2^53` and
value `q · 2^k`, except below the normal range, where `k` stays at `-1074`. -/
def bits (num den : Nat) : Option Nat :=
  let k0 : Int := (num.log2 : Int) - (den.log2 : Int) - 52
  let p := scaled num den k0
  let k := if p.1 < Nat.pow 2 52 * p.2 then k0 - 1 else k0
  let k := if k < -1074 then -1074 else k
  let p := scaled num den k
  let q := roundHalfEven p.1 p.2
  let (q, k) := if q == Nat.pow 2 53 then (q / 2, k + 1) else (q, k)
  if q < Nat.pow 2 52 then some q
  else if k + 1075 ≥ 2047 then none
  else some ((k + 1075).toNat * Nat.pow 2 52 + (q - Nat.pow 2 52))

/-- The double nearest to `± num / den`, or `none` when it overflows. -/
def ratio (negative : Bool) (num den : Nat) : Option Float :=
  if num = 0 || den = 0 then some (if negative then -0.0 else 0.0)
  else (bits num den).map fun b => Float.ofBits (b + if negative then Nat.pow 2 63 else 0).toUInt64

/-- The double nearest to `± digits · 10^e`, or `none` when it overflows. Values with more than
310 digits before the point overflow at once, and values below `10^-330` are zero. -/
def decimal (negative : Bool) (digits : Nat) (e : Int) : Option Float :=
  let size : Int := (Nat.toDigits 10 digits).length + e
  if digits = 0 then some (if negative then -0.0 else 0.0)
  else if size > 310 then none
  else if size < -330 then some (if negative then -0.0 else 0.0)
  else if e ≥ 0 then ratio negative (digits * Nat.pow 10 e.toNat) 1
  else ratio negative digits (Nat.pow 10 (-e).toNat)

/-- The double nearest to `± m · 2^e`, or `none` when it overflows. -/
def binary (negative : Bool) (m : Nat) (e : Int) : Option Float :=
  if m = 0 then some (if negative then -0.0 else 0.0)
  else if (m.log2 : Int) + e > 1100 then none
  else if (m.log2 : Int) + e < -1200 then some (if negative then -0.0 else 0.0)
  else if e ≥ 0 then ratio negative (m * Nat.pow 2 e.toNat) 1
  else ratio negative m (Nat.pow 2 (-e).toNat)

end Nearest

end Timetabling
