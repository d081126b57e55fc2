import Timetabling.Number.Literal

/-! # What a YAML scalar stands for

A plain scalar without a tag is *resolved* by its spelling, the first character deciding what
to try:

* `null`, `Null`, `NULL`, `~` and the empty scalar are null; `true`, `True`, `TRUE` and their
  `false` forms are booleans; `.nan`, `.inf`, `-.inf` and their capitalised forms are floats;
* a scalar starting with `.` is a float if it reads as one;
* a scalar starting with a digit or a sign is a timestamp (four digits and a dash, then a date,
  maybe a time and a zone), else, with underscores dropped, a 64-bit integer in a base given by
  its prefix, else an unsigned 64-bit integer, else a decimal float that reads without overflow;
* everything else is a string.

A tag may force the kind: `!!str` (and `!!binary`) take any text; `!!null`, `!!bool`, `!!int`,
`!!float` and `!!timestamp` take only text that resolves to that kind (an integer serves as a
float), and any other tag leaves the text as it is. Tags are written short: `!!name` stands for
`tag:yaml.org,2002:name`. -/

namespace Timetabling

namespace Yaml

/-- What a scalar stands for. -/
inductive Resolved where
  | null
  | bool (b : Bool)
  /-- A signed 64-bit integer. -/
  | int (n : Int)
  /-- An integer above the signed 64-bit range that fits 64 bits unsigned. -/
  | uint (n : Nat)
  | float (x : Float)
  | timestamp
  | str (s : String)
deriving Repr, Inhabited

/-- The short form of a tag: `tag:yaml.org,2002:` becomes `!!`. -/
def shortTag (tag : String) : String :=
  let long := "tag:yaml.org,2002:"
  if tag.startsWith long then "!!" ++ (tag.drop long.length).toString else tag

/-- The scalars whose spelling alone decides what they stand for. -/
def spelledValue? : String → Option (String × Resolved)
  | "true" | "True" | "TRUE" => some ("!!bool", .bool true)
  | "false" | "False" | "FALSE" => some ("!!bool", .bool false)
  | "" | "~" | "null" | "Null" | "NULL" => some ("!!null", .null)
  | ".nan" | ".NaN" | ".NAN" => some ("!!float", .float (0.0 / 0.0))
  | ".inf" | ".Inf" | ".INF" | "+.inf" | "+.Inf" | "+.INF" => some ("!!float", .float (1.0 / 0.0))
  | "-.inf" | "-.Inf" | "-.INF" => some ("!!float", .float (-1.0 / 0.0))
  | _ => none

/-- Whether text is a decimal float: an optional sign, then digits with an optional point and
fraction or a point and digits, then an optional exponent. -/
def isDecimalFloat (cs : List Char) : Bool :=
  let cs := match cs with
    | '-' :: rest | '+' :: rest => rest
    | _ => cs
  let whole := cs.takeWhile Char.isDigit
  let rest := cs.dropWhile Char.isDigit
  let (ok, rest) := match rest with
    | '.' :: r =>
      let frac := r.takeWhile Char.isDigit
      (!whole.isEmpty || !frac.isEmpty, r.dropWhile Char.isDigit)
    | _ => (!whole.isEmpty, rest)
  let expOk := match rest with
    | [] => true
    | 'e' :: r | 'E' :: r =>
      let r := match r with
        | '-' :: t | '+' :: t => t
        | _ => r
      !r.isEmpty && r.all Char.isDigit
    | _ => false
  ok && expOk

/-- The days of a month. -/
def daysIn (month year : Nat) : Nat :=
  if month == 2 then (if (year % 4 == 0 && year % 100 != 0) || year % 400 == 0 then 29 else 28)
  else if month == 4 || month == 6 || month == 9 || month == 11 then 30
  else 31

/-- One or two leading digits. -/
def shortNumber : List Char → Option (Nat × List Char)
  | a :: b :: rest =>
    if !a.isDigit then none
    else if b.isDigit then some ((a.toNat - 48) * 10 + (b.toNat - 48), rest)
    else some (a.toNat - 48, b :: rest)
  | [a] => if a.isDigit then some (a.toNat - 48, []) else none
  | [] => none

/-- A clock time `h:m:s` with an optional fraction of a second after `.` or `,`: hours below
24, minutes and seconds below 60. -/
def clockRest (cs : List Char) : Option (List Char) := do
  let (h, cs) ← shortNumber cs
  let cs ← match cs with | ':' :: r => some r | _ => none
  let (m, cs) ← shortNumber cs
  let cs ← match cs with | ':' :: r => some r | _ => none
  let (s, cs) ← shortNumber cs
  if h ≥ 24 || m ≥ 60 || s ≥ 60 then none
  else
    match cs with
    | p :: d :: r => if (p == '.' || p == ',') && d.isDigit then some (r.dropWhile Char.isDigit) else some cs
    | _ => some cs

/-- A zone: `Z`, or a sign, two digits of hours up to 24, `:` and two digits of minutes up to
60. -/
def zoneRest : List Char → Option (List Char)
  | 'Z' :: r => some r
  | sign :: h1 :: h2 :: ':' :: m1 :: m2 :: r =>
    if (sign == '+' || sign == '-') && h1.isDigit && h2.isDigit && m1.isDigit && m2.isDigit &&
        (h1.toNat - 48) * 10 + (h2.toNat - 48) ≤ 24 && (m1.toNat - 48) * 10 + (m2.toNat - 48) ≤ 60 then some r
    else none
  | _ => none

/-- Whether text is a timestamp: a date `yyyy-m-d` (month and day of one or two digits, a day
that exists), alone, or followed by `T` or `t`, a clock time and a zone, or by spaces and a
clock time. -/
def isTimestamp (s : String) : Bool :=
  let cs := s.toList
  let year := cs.take 4
  if !(year.length == 4 && year.all Char.isDigit && (cs.drop 4).head? == some '-') then false
  else
    let y := year.foldl (fun acc c => acc * 10 + (c.toNat - 48)) 0
    let date : Option (Nat × Nat × List Char) := do
      let (m, r) ← shortNumber (cs.drop 5)
      let r ← match r with | '-' :: r => some r | _ => none
      let (d, r) ← shortNumber r
      pure (m, d, r)
    match date with
    | none => false
    | some (m, d, rest) =>
      if m < 1 || m > 12 || d < 1 || d > daysIn m y then false
      else
        let zoned (r : List Char) : Bool := match clockRest r >>= zoneRest with
          | some [] => true
          | _ => false
        match rest with
        | [] => true
        | 'T' :: r | 't' :: r => zoned r
        | ' ' :: r =>
          match clockRest (r.dropWhile (· == ' ')) with
          | some [] => true
          | _ => false
        | _ => false

/-- An unsigned integer with an optional base prefix, below 2⁶⁴. -/
def unsigned64? (s : String) : Option Nat :=
  (IntLiteral.unsigned? s.toList).bind fun n => if n < Nat.pow 2 64 then some n else none

/-- What a scalar stands for under a tag that may be resolved (empty, `!!str`, `!!bool`, `!!int`,
`!!float`, `!!null` or `!!timestamp`), with the tag it resolves to; the tag only decides whether
the text is looked at and whether timestamps are tried. -/
def resolveSpelling (tag value : String) : String × Resolved :=
  let first := value.toList.head?
  let hinted := match first with
    | none => true
    | some c => c.isDigit || c == '+' || c == '-' || c == '.' || "yYnNtTfFoO~".toList.contains c
  if !hinted || tag == "!!str" || tag == "!!binary" then ("!!str", .str value)
  else
    match spelledValue? value with
    | some r => r
    | none =>
      match first with
      | some '.' =>
        match FloatLiteral.parse? value with
        | some x => ("!!float", .float x)
        | none => ("!!str", .str value)
      | some c =>
        if c.isDigit || c == '+' || c == '-' then
          if (tag == "" || tag == "!!timestamp") && isTimestamp value then ("!!timestamp", .timestamp)
          else
            let plain := String.ofList (value.toList.filter (· != '_'))
            match IntLiteral.parse? plain with
            | some n => ("!!int", .int n)
            | none =>
              match unsigned64? plain with
              | some n => ("!!int", .uint n)
              | none =>
                if isDecimalFloat plain.toList then
                  match FloatLiteral.parse? plain with
                  | some x => ("!!float", .float x)
                  | none => ("!!str", .str value)
                else ("!!str", .str value)
        else ("!!str", .str value)
      | none => ("!!str", .str value)

/-- The tag a plain scalar without a tag resolves to. -/
def plainTag (value : String) : String :=
  (resolveSpelling "" value).1

/-- What a scalar with a (short) tag stands for, with its resolved tag. A tag of a resolvable
kind must agree with the spelling, an integer serving as a float; otherwise decoding fails with
the message returned. Other tags keep the text. -/
def resolve (tag value : String) : Except String (String × Resolved) :=
  let resolvable := tag == "" || tag == "!!str" || tag == "!!bool" || tag == "!!int" ||
    tag == "!!float" || tag == "!!null" || tag == "!!timestamp"
  if !resolvable then .ok (tag, .str value)
  else
    let (rtag, r) := resolveSpelling tag value
    if tag == "" || tag == rtag || tag == "!!str" then .ok (rtag, r)
    else
      match tag, r with
      | "!!float", .int n => .ok ("!!float", .float (Float.ofInt n))
      | _, _ => .error ("cannot decode " ++ rtag ++ " `" ++ value ++ "` as a " ++ tag)

end Yaml

end Timetabling
