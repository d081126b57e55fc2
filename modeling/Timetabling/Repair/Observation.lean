import Timetabling.Search.Greedy
import Timetabling.Repair.QTable

/-! # What the repair agent observes

The agent works on the sessions still missing from a timetable, each with the coarse class of
the conflict that blocks most of its candidates: `faculty`, `room` (also for rooms too small),
`student`, or `none`. Its situation for one such session has three parts:

* the conflict class;
* the load of the course's staff member: their sessions over their weekly cap, or, without a cap,
  over twice the mean load of all staff, banded below `0.4` as `low`, below `0.8` as `medium`,
  and `high` above (`low` while nobody teaches);
* the part of the day (`morning`, `midday`, `evening`: the first, second and last third of the
  periods) whose candidate slots hold the most sessions, earlier parts winning ties.

The part of a slot is computed in 64-bit arithmetic. A slot with a negative period, or with one
so large that its triple wraps around to a negative number, gets a negative part; observing a
session with such a candidate is a fault. -/

namespace Timetabling

/-- The coarse class of a conflict kind, as the agent sees it. -/
def ConflictKind.coarse : ConflictKind → String
  | .none => "none"
  | .room | .capacity => "room"
  | .student => "student"
  | _ => "faculty"

/-- A missing session and the coarse class of what blocks it. -/
structure Shortfall where
  key : SessionKey
  conflict : String
deriving DecidableEq, Repr

/-- The part of the day a slot falls in, as an index: its period over the number of periods in
the longest day (one at least), in thirds, capped at the last third. The period is tripled in
64 bits, so a negative period, or one whose triple wraps around, gives a negative index. -/
def Catalog.dayPart (e : Catalog) (slot : TimeSlot) : Int :=
  min ((wrapInt64 (slot.period * 3)).tdiv (max e.periodsPerDay 1)) 2

namespace Timetable

/-- The missing sessions, in catalog order, with what blocks them. -/
def shortfalls (t : Timetable) (d : Domain) : List Shortfall :=
  t.missing.map fun k => ⟨k, (t.dominantBlocker d k).coarse⟩

/-- The load band of the staff member teaching a course. -/
def loadBand (t : Timetable) (courseId : String) : String :=
  let e := t.catalog
  let course := (e.course? courseId).getD {}
  let staff := (e.faculty? course.facultyId).getD {}
  let load := Float.ofNat (t.facultyLoad staff.id)
  let ratio : Option Float :=
    if staff.maxWeeklySessions > 0 then some (load / Float.ofInt staff.maxWeeklySessions)
    else
      let total := e.facultyList.foldl (fun n f => n + t.facultyLoad f.id) 0
      if total == 0 then none
      else some (load / (2 * (Float.ofNat total / Float.ofNat e.facultyList.length)))
  match ratio with
  | none => "low"
  | some r => if r < 0.4 then "low" else if r < 0.8 then "medium" else "high"

/-- The busiest part of the day among a session's candidate slots, or the fault of a slot with a
negative part. -/
def densityBand (t : Timetable) (d : Domain) (key : SessionKey) : Except String String := do
  let e := t.catalog
  let (a, b, c) ← (Domain.slotsOf (d.forKey key)).foldlM (fun (acc : Nat × Nat × Nat) id => do
    let (a, b, c) := acc
    let slot := (e.slot? id).getD {}
    let part := e.dayPart slot
    let n := t.slotLoad slot.id
    if part < 0 then throw (indexFault part none)
    else if part == 0 then pure (a + n, b, c)
    else if part == 1 then pure (a, b + n, c)
    else pure (a, b, c + n)) (0, 0, 0)
  pure (if a ≥ b ∧ a ≥ c then "morning" else if b ≥ c then "midday" else "evening")

/-- The agent's situation for a missing session. -/
def observe (t : Timetable) (d : Domain) (s : Shortfall) : Except String Situation := do
  pure ⟨s.conflict, t.loadBand s.key.course, ← t.densityBand d s.key⟩

/-- The variance of the staff loads. -/
def loadVariance (t : Timetable) : Float :=
  let staff := t.catalog.facultyList
  if staff.isEmpty then 0
  else
    let n := Float.ofNat staff.length
    let mean := staff.foldl (fun s f => s + Float.ofNat (t.facultyLoad f.id)) 0 / n
    staff.foldl (fun s f => let x := Float.ofNat (t.facultyLoad f.id) - mean; s + x * x) 0 / n

end Timetable

end Timetabling
