/-! # Shortest decimals of binary floats

A finite double is exactly `m · 2^e`. The reals that read back as it form an interval around it,
whose ends belong to it exactly when `m` is even (reading rounds ties to even). The shortest
decimal of the double is the decimal with fewest significant digits inside that interval; of two
such decimals the one nearer the double wins, and an exact tie goes to the even digit string.

All arithmetic here is on natural numbers, so the result is exact. -/

namespace Timetabling

/-- A decimal numeral `± digits · 10^exponent`. -/
structure Decimal where
  negative : Bool
  digits : Nat
  exponent : Int
deriving DecidableEq, Repr, Inhabited

namespace Decimal

/-- Sign, integer significand and binary exponent of a finite double, read off its bits. -/
def binaryParts (x : Float) : Bool × Nat × Int × Bool :=
  let bits : Nat := x.toBits.toNat
  let negative := bits ≥ Nat.pow 2 63
  let biased : Nat := (bits / Nat.pow 2 52) % 2048
  let fraction : Nat := bits % Nat.pow 2 52
  if biased = 0 then (negative, fraction, -1074, false)
  else (negative, fraction + Nat.pow 2 52, (biased : Int) - 1075, fraction = 0 ∧ biased > 1)

/-- Number of decimal digits of a positive natural number (one for zero). -/
def digitCount (n : Nat) : Nat :=
  (Nat.toDigits 10 n).length

/-- `⌊log₁₀ (num / den)⌋` for positive `num` and `den`. -/
def floorLog10 (num den : Nat) : Int :=
  if den ≤ num then (digitCount (num / den) : Int) - 1
  else -(digitCount ((den + num - 1) / num - 1) : Int)

/-- Compare `a · 10^k` with `b · 2^s` exactly. -/
def compareScaled (a : Nat) (k : Int) (b : Nat) (s : Int) : Ordering :=
  compare (a * Nat.pow 10 k.toNat * Nat.pow 2 (-s).toNat) (b * Nat.pow 2 s.toNat * Nat.pow 10 (-k).toNat)

/-- The distance between `a · 10^k` and `b · 2^s`, scaled by a common positive factor. -/
def scaledGap (a : Nat) (k : Int) (b : Nat) (s : Int) : Nat :=
  let l := a * Nat.pow 10 k.toNat * Nat.pow 2 (-s).toNat
  let r := b * Nat.pow 2 s.toNat * Nat.pow 10 (-k).toNat
  if l ≤ r then r - l else l - r

/-- Strip trailing zero digits into the exponent. -/
def normalize (d : Decimal) : Decimal :=
  go d.digits.log2.succ d
where
  go : Nat → Decimal → Decimal
    | 0, d => d
    | fuel + 1, d =>
      if d.digits ≠ 0 ∧ d.digits % 10 = 0 then go fuel { d with digits := d.digits / 10, exponent := d.exponent + 1 }
      else d

/-- The shortest decimal of a positive double `m · 2^e`; `lowerClose` says the next smaller double
is half as far away as the next larger one. -/
def shortestOfParts (m : Nat) (e : Int) (lowerClose : Bool) : Nat × Int :=
  let s := e - 2
  let center := 4 * m
  let low := if lowerClose then 4 * m - 1 else 4 * m - 2
  let high := 4 * m + 2
  let inclusive := m % 2 = 0
  let num := m * Nat.pow 2 e.toNat
  let den := Nat.pow 2 (-e).toNat
  let lg := floorLog10 num den
  let inside (d : Nat) (k : Int) : Bool :=
    let lo := compareScaled d k low s
    let hi := compareScaled d k high s
    (lo == .gt || (inclusive && lo == .eq)) && (hi == .lt || (inclusive && hi == .eq))
  let pick (n : Nat) : Option (Nat × Int) :=
    let k := lg - n + 1
    let d := num * Nat.pow 10 (-k).toNat / (den * Nat.pow 10 k.toNat)
    match inside d k, inside (d + 1) k with
    | true, true =>
      let g0 := scaledGap d k center s
      let g1 := scaledGap (d + 1) k center s
      if g0 < g1 then some (d, k)
      else if g1 < g0 then some (d + 1, k)
      else if d % 2 = 0 then some (d, k) else some (d + 1, k)
    | true, false => some (d, k)
    | false, true => some (d + 1, k)
    | false, false => none
  let rec search : Nat → Nat → Nat × Int
    | 0, n => (num * Nat.pow 10 (-(lg - n + 1)).toNat / (den * Nat.pow 10 (lg - n + 1).toNat), lg - n + 1)
    | fuel + 1, n => match pick n with
      | some r => r
      | none => search fuel (n + 1)
  search 17 1

/-- The shortest decimal that reads back as the given finite double. -/
def ofFloat (x : Float) : Decimal :=
  let (negative, m, e, lowerClose) := binaryParts x
  if m = 0 then ⟨negative, 0, 0⟩
  else
    let (d, k) := shortestOfParts m e lowerClose
    normalize ⟨negative, d, k⟩

/-- Round `x · 10^places` to the nearest integer, ties to even, exactly. -/
def roundScaled (x : Float) (places : Nat) : Bool × Nat :=
  let (negative, m, e, _) := binaryParts x
  let num := m * Nat.pow 10 places * Nat.pow 2 e.toNat
  let den := Nat.pow 2 (-e).toNat
  let q := num / den
  let r := num % den
  let up := 2 * r > den || (2 * r = den && q % 2 = 1)
  (negative, if up then q + 1 else q)

end Decimal

end Timetabling
