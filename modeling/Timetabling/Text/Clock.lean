import Timetabling.Number.Truncate

/-! # Clock times

A clock time is written `H:MM` or `HH:MM`: an hour of one or two digits below 24, a colon, and
exactly two digits of minutes below 60, with nothing after. A refusal names the text and the
first part that does not fit: the remaining text and the expected element (`15` for the hour,
`:` for the colon, `04` for the minutes), an hour or minute out of range, or extra text. -/

namespace Timetabling

namespace Clock

/-- A character as text between double quotes, non-ASCII and control bytes as `\xNN`. -/
def quoteRaw (s : String) : String :=
  let hex := "0123456789abcdef".toList
  let esc (b : UInt8) : String :=
    "\\x" ++ String.ofList [hex.getD (b.toNat / 16) '0', hex.getD (b.toNat % 16) '0']
  let part (c : Char) : String :=
    if c.toNat ≥ 0x80 || c.toNat < 0x20 then String.join ((String.singleton c).toUTF8.toList.map esc)
    else if c == '"' || c == '\\' then "\\" ++ String.singleton c
    else String.singleton c
  "\"" ++ String.join (s.toList.map part) ++ "\""

/-- The text of a refusal. -/
def refusal (value : String) (detail : String) : String :=
  "parsing time " ++ quoteRaw value ++ detail

/-- The refusal for an element that does not match. -/
def mismatch (value rest element : String) : String :=
  refusal value (" as " ++ quoteRaw "15:04" ++ ": cannot parse " ++ quoteRaw rest ++ " as " ++ quoteRaw element)

/-- Read one or two leading digits (exactly two when `fixed`). -/
def number? (cs : List Char) (fixed : Bool) : Option (Nat × List Char) :=
  match cs with
  | a :: b :: rest =>
    if a.isDigit then
      if b.isDigit then some ((a.toNat - 48) * 10 + (b.toNat - 48), rest)
      else if fixed then none else some (a.toNat - 48, b :: rest)
    else none
  | [a] => if a.isDigit ∧ !fixed then some (a.toNat - 48, []) else none
  | [] => none

/-- Minutes since midnight of a clock time, or the refusal's text. -/
def parse (value : String) : Except String Nat := do
  let cs := value.toList
  let (hour, cs) ← match number? cs false with
    | some r => pure r
    | none => throw (mismatch value value "15")
  if hour ≥ 24 then throw (refusal value ": hour out of range")
  let cs ← match cs with
    | ':' :: rest => pure rest
    | _ => throw (mismatch value (String.ofList cs) ":")
  let (minute, cs) ← match number? cs true with
    | some r => pure r
    | none => throw (mismatch value (String.ofList cs) "04")
  if minute ≥ 60 then throw (refusal value ": minute out of range")
  if !cs.isEmpty then throw (refusal value (": extra text: " ++ quoteRaw (String.ofList cs)))
  pure (hour * 60 + minute)

/-- Two-digit text of a number below 100 (more digits when larger). -/
def pad2 (n : Nat) : String :=
  if n < 10 then "0" ++ toString n else toString n

/-- Nanoseconds in a minute. -/
def minute : Int := 60000000000

/-- Nanoseconds in an hour. -/
def hour : Int := 3600000000000

/-- Decimal text of an integer with at least two digits: a single digit gets a leading zero,
and a negative number is written with its sign and no padding. -/
def pad2Int (n : Int) : String :=
  if 0 ≤ n ∧ n < 10 then "0" ++ toString n else toString n

/-- The text `HH:MM` of a span of nanoseconds since midnight: the hours it spans and the minutes
past the hour. Both are read as floats (whole units plus the fraction of the remainder) and
truncated, so a span beyond a day shows more hours, a negative span shows negative parts, and a
remainder within a rounding step of the next unit counts as that unit. -/
def format (span : Int) : String :=
  let hours := Float.ofInt (span.tdiv hour) + Float.ofInt (span.tmod hour) / 3.6e12
  let minutes := Float.ofInt (span.tdiv minute) + Float.ofInt (span.tmod minute) / 6e10
  pad2Int (truncToInt64 hours) ++ ":" ++ pad2Int ((truncToInt64 minutes).tmod 60)

end Clock

end Timetabling
