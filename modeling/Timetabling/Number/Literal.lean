import Timetabling.Json.Decode
import Timetabling.Number.Nearest

/-! # Number literals in text

Settings arrive as text and are read as numbers by two rules.

An integer is an optional sign and digits in a base chosen by a prefix: `0x` for hexadecimal,
`0o` or a bare leading `0` for octal, `0b` for binary, and decimal otherwise. Underscores may
separate digits, or follow a prefix, but never start, end or double up. The value must fit a
signed 64-bit integer.

A float is an optional sign and either decimal digits with an optional point and fraction (one
side may be empty) and an optional exponent, or `0x`, hexadecimal digits with an optional point
and a binary exponent; underscores may separate digits as in integers. The words `inf`,
`infinity` (with an optional sign) and `nan` (without one) are read in any case. The value is
rounded to the nearest double, and a literal whose value lies beyond the largest double is
refused. -/

namespace Timetabling

namespace IntLiteral

/-- Whether underscores in a literal only separate digits. -/
def separatorsOk (cs : List Char) : Bool :=
  let cs := match cs with
    | '-' :: r | '+' :: r => r
    | r => r
  let (hex, start, body) := match cs with
    | '0' :: b :: r =>
      if b.toLower == 'x' then (true, '0', r)
      else if b.toLower == 'b' || b.toLower == 'o' then (false, '0', r)
      else (false, '^', cs)
    | _ => (false, '^', cs)
  let final := body.foldl (fun (saw : Option Char) c =>
    saw.bind fun saw =>
      if c.isDigit || (hex && 'a' ≤ c.toLower && c.toLower ≤ 'f') then some '0'
      else if c == '_' then (if saw != '0' then none else some '_')
      else if saw == '_' then none
      else some '!') (some start)
  match final with
  | some saw => saw != '_'
  | none => false

/-- The value of digits in a base, skipping underscores; `none` if a digit is out of range. -/
def digitsIn (base : Nat) (cs : List Char) : Option Nat :=
  cs.foldlM (fun acc c =>
    if c == '_' then some acc
    else
      let d := if c.isDigit then some (c.toNat - '0'.toNat)
        else if 'a' ≤ c.toLower ∧ c.toLower ≤ 'z' then some (c.toLower.toNat - 'a'.toNat + 10)
        else none
      d.bind fun d => if d < base then some (acc * base + d) else none) 0

/-- The value of an unsigned literal with its base prefix. -/
def unsigned? (cs : List Char) : Option Nat :=
  if cs.isEmpty then none
  else
    let (base, body) := match cs with
      | '0' :: b :: r :: rest =>
        if b.toLower == 'b' then (2, r :: rest)
        else if b.toLower == 'o' then (8, r :: rest)
        else if b.toLower == 'x' then (16, r :: rest)
        else (8, b :: r :: rest)
      | '0' :: rest => (8, rest)
      | _ => (10, cs)
    if !separatorsOk cs then none else digitsIn base body

/-- The value of an integer literal, if it is one and fits 64 bits. -/
def parse? (s : String) : Option Int :=
  let cs := s.toList
  let (neg, body) := match cs with
    | '-' :: r => (true, r)
    | '+' :: r => (false, r)
    | r => (false, r)
  if !separatorsOk cs then none
  else (unsigned? body).bind fun n =>
    let v : Int := if neg then -(n : Int) else n
    if -(Int.pow 2 63) ≤ v ∧ v < Int.pow 2 63 then some v else none

end IntLiteral

/-- Why text does not read as a float: it is not a float literal, or its value lies beyond the
largest double. -/
inductive FloatError where
  | malformed
  | outOfRange
deriving DecidableEq, Repr

namespace FloatLiteral

/-- The value of a digit in a base, if it is one. -/
def digitValue (base : Nat) (c : Char) : Option Nat :=
  let d := if c.isDigit then some (c.toNat - '0'.toNat)
    else if base == 16 && 'a' ≤ c.toLower && c.toLower ≤ 'f' then some (c.toLower.toNat - 'a'.toNat + 10)
    else none
  d.bind fun d => if d < base then some d else none

/-- The infinities and NaN written as words: `inf` or `infinity` after an optional sign, or
`nan` without one, in any case. -/
def special? (cs : List Char) : Option Float :=
  let word (r : List Char) : String := String.ofList (r.map Char.toLower)
  let infinite (r : List Char) : Bool := word r == "inf" || word r == "infinity"
  match cs with
  | '+' :: r => if infinite r then some (1.0 / 0.0) else none
  | '-' :: r => if infinite r then some (-1.0 / 0.0) else none
  | r => if infinite r then some (1.0 / 0.0) else if word r == "nan" then some (0.0 / 0.0) else none

/-- The digits of a mantissa: its value with the point ignored, the number of digits after the
point, whether it had a digit, and what follows it. Underscores are skipped here and checked
separately. -/
def mantissa (base : Nat) : List Char → Nat → Nat → Bool → Bool → Nat × Nat × Bool × List Char
  | [], m, frac, _, seen => (m, frac, seen, [])
  | c :: rest, m, frac, dot, seen =>
    if c == '_' then mantissa base rest m frac dot seen
    else if c == '.' then
      if dot then (m, frac, seen, c :: rest) else mantissa base rest m frac true seen
    else match digitValue base c with
      | some d => mantissa base rest (m * base + d) (if dot then frac + 1 else frac) dot true
      | none => (m, frac, seen, c :: rest)

/-- The digits of an exponent, skipping underscores; its value stops growing past ten thousand. -/
def exponentDigits : List Char → Nat → Nat × List Char
  | [], e => (e, [])
  | c :: rest, e =>
    if c == '_' then exponentDigits rest e
    else if c.isDigit then exponentDigits rest (if e < 10000 then e * 10 + (c.toNat - '0'.toNat) else e)
    else (e, c :: rest)

/-- Read a float literal: an optional sign, then either decimal digits with an optional point and
exponent `e`, or `0x` and hexadecimal digits with an optional point and a required binary
exponent `p`; underscores may separate digits. The value is rounded to the nearest double;
beyond the largest double the literal is refused as out of range. -/
def read (s : String) : Except FloatError Float :=
  let cs := s.toList
  match special? cs with
  | some x => .ok x
  | none =>
    let (neg, body) := match cs with
      | '-' :: r => (true, r)
      | '+' :: r => (false, r)
      | r => (false, r)
    let (base, digits) := match body with
      | '0' :: x :: r :: rest => if x.toLower == 'x' then (16, r :: rest) else (10, body)
      | _ => (10, body)
    let (m, frac, seen, rest) := mantissa base digits 0 0 false false
    let expChar := if base == 16 then 'p' else 'e'
    let exponent : Option (Int × List Char) := match rest with
      | c :: r =>
        if c.toLower == expChar then
          let (sign, r) := match r with
            | '+' :: t => (1, t)
            | '-' :: t => (-1, t)
            | t => ((1 : Int), t)
          match r with
          | d :: _ => if d.isDigit then let (e, t) := exponentDigits r 0; some (sign * e, t) else none
          | [] => none
        else if base == 16 then none
        else some (0, c :: r)
      | [] => if base == 16 then none else some (0, [])
    match exponent with
    | some (e, []) =>
      if !seen || !IntLiteral.separatorsOk cs then .error .malformed
      else
        let value := if base == 16 then Nearest.binary neg m (e - 4 * frac) else Nearest.decimal neg m (e - frac)
        match value with
        | some x => .ok x
        | none => .error .outOfRange
    | _ => .error .malformed

/-- The value of a float literal, if it reads. -/
def parse? (s : String) : Option Float :=
  (read s).toOption

/-- Whether a literal is refused only for lying beyond the largest double. -/
def overflows (s : String) : Bool :=
  match read s with
  | .error .outOfRange => true
  | _ => false

end FloatLiteral

end Timetabling
