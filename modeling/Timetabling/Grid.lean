import Timetabling.Catalog.Records
import Timetabling.Text.Clock
import Timetabling.Text.Quoted

/-! # Weekly slot grids

A grid lays out the same periods on each working day: periods of a fixed length follow each other
from the start of the day, and a period that would overlap the lunch window starts when lunch
ends instead. Days are numbered 1 to 7; others are ignored and repeats count once. A day whose
periods run past midnight is refused. Slot ids are `D<day>-P<period>`. -/

namespace Timetabling

/-- How to lay out a weekly grid. Clock times are `HH:MM` texts. -/
structure GridConfig where
  workingDays : List Int := []
  slotsPerDay : Int := 0
  /-- The length of a period in whole minutes, the form in which generation requests give it;
  laying out the grid turns it into nanoseconds kept in 64 bits (`slotSpan`), so lengths that are
  not a whole number of minutes are outside this model. -/
  slotMinutes : Int := 0
  dayStart : String := ""
  lunchStart : String := ""
  lunchEnd : String := ""

namespace GridConfig

/-- Five working days of eight one-hour periods from 08:00, with lunch from 12:00 to 13:00. -/
def standard : GridConfig :=
  { workingDays := [1, 2, 3, 4, 5], slotsPerDay := 8, slotMinutes := 60, dayStart := "08:00",
    lunchStart := "12:00", lunchEnd := "13:00" }

/-- The distinct days between 1 and 7, in order. -/
def days (c : GridConfig) : List Int :=
  (List.range 7).filterMap fun (i : Nat) =>
    let d : Int := (i : Int) + 1
    if c.workingDays.contains d then some d else none

/-- Read a clock field, naming it in the refusal. -/
def clock (field value : String) : Except String Int :=
  match Clock.parse value with
  | .ok m => .ok m
  | .error e => .error ("grid: invalid " ++ field ++ " " ++ Text.quoted value ++ ": " ++ e)

/-- The length of a period in nanoseconds, kept in 64 bits: a length too large wraps around. -/
def slotSpan (c : GridConfig) : Int :=
  wrapInt64 (c.slotMinutes * Clock.minute)

/-- Where the period that follows a cursor goes, as its start and end: at the cursor, or at the end
of the lunch window when it would overlap lunch. Times are in nanoseconds since midnight and kept
in 64 bits. -/
def periodTimes (c : GridConfig) (lunch : Option (Int × Int)) (cursor : Int) : Int × Int :=
  let finish := wrapInt64 (cursor + c.slotSpan)
  match lunch with
  | some (ls, le) => if cursor < le ∧ finish > ls then (le, wrapInt64 (le + c.slotSpan)) else (cursor, finish)
  | none => (cursor, finish)

/-- The slot of a period of a day, with its clock times. -/
def slotAt (day : Int) (period : Nat) (start finish : Int) : TimeSlot :=
  { id := s!"D{day}-P{period}", day, period := period, start := Clock.format start,
    finish := Clock.format finish }

/-- Lay out one more period of a day after the slots so far, which end at the cursor; a period that
ends after midnight is refused. -/
def dayStep (c : GridConfig) (day : Int) (lunch : Option (Int × Int))
    (acc : Except String (List TimeSlot × Int)) (period : Nat) : Except String (List TimeSlot × Int) := do
  let (slots, cursor) ← acc
  let (cursor, finish) := c.periodTimes lunch cursor
  if finish > 24 * Clock.hour then throw s!"grid: day {day} runs past midnight at period {period}"
  pure (slots ++ [slotAt day period cursor finish], finish)

/-- The slots of one day, from a start time, around an optional lunch window. -/
def daySlots (c : GridConfig) (day start : Int) (lunch : Option (Int × Int)) :
    Except String (List TimeSlot) :=
  ((List.range c.slotsPerDay.toNat).foldl (c.dayStep day lunch) (.ok ([], start))).map (·.1)

/-- Lay out the grid, or say why the configuration is refused. -/
def build (c : GridConfig) : Except String (List TimeSlot) := do
  let days := c.days
  if days.isEmpty then throw "grid: at least one working day between 1 and 7 is required"
  if c.slotsPerDay ≤ 0 then throw "grid: slots per day must be positive"
  if c.slotSpan ≤ 0 then throw "grid: slot duration must be positive"
  let start := (← clock "day start" c.dayStart) * Clock.minute
  let lunch ← if c.lunchStart != "" || c.lunchEnd != "" then do
      let ls := (← clock "lunch start" c.lunchStart) * Clock.minute
      let le := (← clock "lunch end" c.lunchEnd) * Clock.minute
      if le ≤ ls then throw "grid: lunch window must end after it starts"
      pure (some (ls, le))
    else pure none
  let perDay ← days.mapM fun d => c.daySlots d start lunch
  pure perDay.flatten

end GridConfig

end Timetabling
