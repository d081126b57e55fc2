import Timetabling.Number.Shortest

/-! # Writing numbers as text

Two layouts of a decimal are used by the answers: plain positional digits, and scientific form
`d.ddde±x`. Floats in JSON answers take their shortest decimal, written positionally from `1e-6`
up to below `1e21` and scientifically outside; a negative exponent has no padding and a positive
one at least two digits. Fixed places round the exact binary value, ties to even. -/

namespace Timetabling

namespace Decimal

/-- A string of `n` zeros. -/
def zeros (n : Nat) : String :=
  String.ofList (List.replicate n '0')

/-- The digit string of the significand. -/
def digitText (d : Decimal) : String :=
  String.ofList (Nat.toDigits 10 d.digits)

/-- Positional layout: digits, with a point where the exponent puts it. -/
def positional (d : Decimal) : String :=
  let ds := d.digitText
  let n := ds.length
  let point : Int := n + d.exponent
  let body :=
    if d.digits = 0 then "0"
    else if point ≤ 0 then "0." ++ zeros (-point).toNat ++ ds
    else if point ≥ n then ds ++ zeros (point.toNat - n)
    else
      let cs := ds.toList
      String.ofList (cs.take point.toNat) ++ "." ++ String.ofList (cs.drop point.toNat)
  (if d.negative then "-" else "") ++ body

/-- Scientific layout: one digit before the point, and the exponent after an `e`. -/
def scientific (d : Decimal) : String :=
  let cs := d.digitText.toList
  let exp : Int := (cs.length : Int) + d.exponent - 1
  let mantissa := match cs with
    | [] => "0"
    | [c] => String.singleton c
    | c :: rest => String.singleton c ++ "." ++ String.ofList rest
  let expText :=
    if exp < 0 then "-" ++ toString (-exp)
    else "+" ++ (if exp < 10 then "0" else "") ++ toString exp
  (if d.negative then "-" else "") ++ mantissa ++ "e" ++ expText

end Decimal

namespace FloatText

/-- The JSON text of a float: shortest digits, positional between `1e-6` and `1e21`. -/
def json (x : Float) : String :=
  let d := Decimal.ofFloat x
  let a := x.abs
  if a != 0 && (a < 1e-6 || a ≥ 1e21) then d.scientific else d.positional

/-- The float rounded to `places` decimals, written positionally with exactly that many. -/
def fixed (x : Float) (places : Nat) : String :=
  let (negative, q) := Decimal.roundScaled x places
  let ds := String.ofList (Nat.toDigits 10 q)
  let padded := Decimal.zeros (places + 1 - ds.length) ++ ds
  let cs := padded.toList
  let whole := String.ofList (cs.take (cs.length - places))
  let frac := String.ofList (cs.drop (cs.length - places))
  (if negative then "-" else "") ++ whole ++ (if places = 0 then "" else "." ++ frac)

/-- The general text of a float: shortest digits, in exponent form (with at least two exponent
digits) from a million up and below one ten-thousandth. -/
def general (x : Float) : String :=
  if x == 0 then "0"
  else if x.isNaN then "NaN"
  else if x.isInf then (if x > 0 then "+Inf" else "-Inf")
  else
    let d := Decimal.ofFloat x
    let exp : Int := (d.digitText.length : Int) + d.exponent - 1
    if exp < -4 || exp ≥ 6 then
      let t := d.scientific
      match t.splitOn "e-" with
      | [m, e] => if e.length < 2 then m ++ "e-0" ++ e else t
      | _ => t
    else d.positional

end FloatText

end Timetabling
