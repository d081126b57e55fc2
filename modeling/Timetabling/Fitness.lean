import Timetabling.Timetable.Basic

/-! # Soft quality of a timetable

The fitness of a timetable scores its placed sessions against three soft goals, each a sum of
penalties and rewards, and weighs them into one total (higher is better):

* staff preference: the staff member's weight for the slot when they gave one, and otherwise a
  penalty of `5` for a slot in the first two periods or the last period of its day;
* room utilization: for a room with more than twice as many seats as students (counting at least
  one student), the excess ratio over `2` is subtracted;
* peak spread: each slot holding more than `1.5` times the average number of sessions per slot
  loses that excess.

The total weighs them `0.4`, `0.3` and `0.3`. Between two timetables the one placing more
sessions is better, and on equal counts the one of higher total. -/

namespace Timetabling

/-- The soft score of a timetable and its three parts. -/
structure Fitness where
  total : Float := 0
  facultyPreference : Float := 0
  roomUtilization : Float := 0
  peakSpread : Float := 0
deriving Repr, Inhabited

/-- The penalty for an unwanted slot at the edge of a day. -/
def edgeSlotPenalty : Float := 5.0

/-- Periods before this one are early. -/
def earlyPeriodCutoff : Int := 2

/-- Rooms with more than this many seats per student are oversized. -/
def oversizeRatio : Float := 2.0

/-- Slots with more than this many times the average load are peaks. -/
def peakRatio : Float := 1.5

namespace Timetable

/-- The preference score and room penalty of one placed session, added to running sums. -/
def scoreSession (t : Timetable) (acc : Float × Float) (key : SessionKey) : Float × Float :=
  let e := t.catalog
  let (pref, rooms) := acc
  let p := (t.lookup key).getD default
  let course := (e.course? key.course).getD {}
  let slot := (e.slot? p.slot).getD {}
  let room := (e.room? p.room).getD {}
  let staff := (e.faculty? course.facultyId).getD {}
  let pref := match staff.preference? slot.id with
    | some w => pref + w
    | none => if decide (slot.period < earlyPeriodCutoff) || e.isLastPeriod slot then pref - edgeSlotPenalty else pref
  let enrollment := Float.ofNat (max (e.enrollment course.id) 1)
  let capacity := Float.ofInt room.capacity
  let rooms := if capacity > oversizeRatio * enrollment then rooms - (capacity / enrollment - oversizeRatio)
    else rooms
  (pref, rooms)

/-- The peak penalty: the load above `1.5` times the average, summed over the slots. -/
def peakPenalty (t : Timetable) : Float :=
  let e := t.catalog
  if e.slots.size > 0 && t.size > 0 then
    let avg := Float.ofNat t.size / Float.ofNat e.slots.size
    e.slots.foldl (fun acc s =>
      let count := Float.ofNat (t.slotLoad s.id)
      if count > peakRatio * avg then acc - (count - peakRatio * avg) else acc) 0
  else 0

/-- The fitness of a timetable. -/
def fitness (t : Timetable) : Fitness :=
  let (pref, rooms) := t.keys.foldl t.scoreSession (0, 0)
  let peak := t.peakPenalty
  { total := 0.4 * pref + 0.3 * rooms + 0.3 * peak
    facultyPreference := pref, roomUtilization := rooms, peakSpread := peak }

/-- Whether a timetable of some fitness beats another: more placed sessions, then a higher
total. -/
def better (a : Timetable) (fa : Fitness) (b : Timetable) (fb : Fitness) : Bool :=
  if a.size != b.size then a.size > b.size else fa.total > fb.total

end Timetable

end Timetabling
