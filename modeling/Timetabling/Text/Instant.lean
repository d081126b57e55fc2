/-! # Instants

The service keeps time on a clock that counts milliseconds from the Unix epoch. An instant is
written in RFC 3339 form in UTC, with the milliseconds when there are any. The civil date of a
day number follows the proleptic Gregorian calendar: eras of 400 years, counted from March so
that the leap day ends the year. -/

namespace Timetabling

/-- A point in time: milliseconds since the Unix epoch. -/
structure Instant where
  millis : Nat := 0
deriving DecidableEq, Repr, Inhabited

namespace Instant

/-- The instant some milliseconds later. -/
def after (t : Instant) (ms : Nat) : Instant := ⟨t.millis + ms⟩

/-- The milliseconds from one instant to a later one; zero if it is not later. -/
def since (now t : Instant) : Nat := now.millis - t.millis

/-- The year, month and day of a day counted from the epoch. -/
def civil (days : Nat) : Nat × Nat × Nat :=
  let z := days + 719468
  let era := z / 146097
  let doe := z - era * 146097
  let yoe := (doe - doe / 1460 + doe / 36524 - doe / 146096) / 365
  let doy := doe - (365 * yoe + yoe / 4 - yoe / 100)
  let mp := (5 * doy + 2) / 153
  let d := doy - (153 * mp + 2) / 5 + 1
  let m := if mp < 10 then mp + 3 else mp - 9
  let y := yoe + era * 400 + (if m ≤ 2 then 1 else 0)
  (y, m, d)

/-- A number with at least `width` digits. -/
def padded (width n : Nat) : String :=
  let s := toString n
  String.ofList (List.replicate (width - s.length) '0') ++ s

/-- The RFC 3339 text of an instant. -/
def text (t : Instant) : String :=
  let secs := t.millis / 1000
  let ms := t.millis % 1000
  let (y, mo, d) := civil (secs / 86400)
  let s := secs % 86400
  padded 4 y ++ "-" ++ padded 2 mo ++ "-" ++ padded 2 d ++ "T" ++ padded 2 (s / 3600) ++ ":" ++
    padded 2 (s / 60 % 60) ++ ":" ++ padded 2 (s % 60) ++
    (if ms = 0 then "" else "." ++ padded 3 ms) ++ "Z"

/-- The text of the zero time of a record that was never stamped. -/
def zeroText : String := "0001-01-01T00:00:00Z"

end Instant

end Timetabling
