/-! # Durations written as text

A duration is written as an optional sign and one or more terms, each a decimal number with an
optional fraction followed by a unit: `ns`, `us` (also `µs` and `μs`), `ms`, `s`, `m` or `h`,
as in `300ms`, `-1.5h` or `2h45m`. A bare `0` is zero. The value is a count of nanoseconds that
must fit a signed 64-bit integer; a term's fraction contributes its product with the unit,
computed in floating point and rounded toward zero. -/

namespace Timetabling

namespace Duration

/-- Nanoseconds in a unit, by its name. -/
def unitNanos : String → Option Nat
  | "ns" => some 1
  | "us" | "µs" | "μs" => some 1000
  | "ms" => some 1000000
  | "s" => some 1000000000
  | "m" => some 60000000000
  | "h" => some 3600000000000
  | _ => none

/-- The bound past which a count overflows. -/
def limit : Nat := Nat.pow 2 63

/-- The leading digits of a text as a number; `none` once the number passes the limit. -/
def leadingInt (cs : List Char) : Option Nat × List Char :=
  let digits := cs.takeWhile Char.isDigit
  let v := digits.foldl (fun (acc : Option Nat) c => acc.bind fun x =>
    if x > limit / 10 then none
    else
      let y := x * 10 + (c.toNat - '0'.toNat)
      if y > limit then none else some y) (some 0)
  (v, cs.dropWhile Char.isDigit)

/-- The leading digits of a fraction as a numerator and a power of ten; digits past the precision
of the numerator are ignored. -/
def leadingFraction (cs : List Char) : Nat × Float × List Char :=
  let digits := cs.takeWhile Char.isDigit
  let (x, scale, _) := digits.foldl (fun (acc : Nat × Float × Bool) c =>
    let (x, scale, capped) := acc
    if capped then acc
    else if x > (limit - 1) / 10 then (x, scale, true)
    else
      let y := x * 10 + (c.toNat - '0'.toNat)
      if y > limit then (x, scale, true) else (y, scale * 10, false)) (0, 1, false)
  (x, scale, cs.dropWhile Char.isDigit)

/-- Read the terms of a duration, adding their nanoseconds to `total`. -/
def terms : Nat → List Char → Nat → Option Nat
  | 0, _, _ => none
  | fuel + 1, cs, total =>
    match cs with
    | [] => some total
    | c :: _ =>
      if !(c == '.' || c.isDigit) then none
      else
        let (whole, rest) := leadingInt cs
        match whole with
        | none => none
        | some v =>
          let pre := rest.length != cs.length
          let (f, scale, rest, post) := match rest with
            | '.' :: r =>
              let (f, scale, r') := leadingFraction r
              (f, scale, r', r'.length != r.length)
            | _ => (0, 1, rest, false)
          if !pre && !post then none
          else
            let unitText := rest.takeWhile fun c => !(c == '.' || c.isDigit)
            let rest := rest.dropWhile fun c => !(c == '.' || c.isDigit)
            if unitText.isEmpty then none
            else match unitNanos (String.ofList unitText) with
              | none => none
              | some unit =>
                if v > limit / unit then none
                else
                  let v := v * unit
                  let v := if f > 0 then v + (Float.ofNat f * (Float.ofNat unit / scale)).toUInt64.toNat else v
                  if v > limit then none
                  else
                    let total := total + v
                    if total > limit then none else terms fuel rest total

/-- The nanoseconds a duration text stands for, if it is one. -/
def parse? (s : String) : Option Int :=
  let cs := s.toList
  let (negative, body) := match cs with
    | '-' :: rest => (true, rest)
    | '+' :: rest => (false, rest)
    | _ => (false, cs)
  if body == ['0'] then some 0
  else if body.isEmpty then none
  else match terms (body.length + 1) body 0 with
    | none => none
    | some d =>
      if negative then some (-(d : Int))
      else if d > limit - 1 then none
      else some (d : Int)

end Duration

end Timetabling
