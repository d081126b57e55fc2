import Timetabling.Catalog.Basic
import Timetabling.Timetable.Conflict

/-! # Timetables

A timetable places sessions of a catalog's courses. Beside the placements it keeps four derived
indexes, so that a check costs one look-up per resource: who teaches, which session holds a room,
and which session each student attends in a slot, and how many sessions each member of staff
teaches and each slot holds. Sessions that could not be placed carry a reason.

`check` refuses a placement for the first of these faults: an unknown session, one already
placed, an unknown slot or room, a room that does not suit the course, staff unavailable in the
slot, staff, room or a student already busy in the slot, and staff at their weekly cap. -/

namespace Timetabling

/-- A partial timetable over a catalog. -/
structure Timetable where
  catalog : Catalog
  placements : Std.HashMap SessionKey Placement := {}
  facultyAt : Std.HashMap (String × String) SessionKey := {}
  roomAt : Std.HashMap (String × String) SessionKey := {}
  studentAt : Std.HashMap (String × String) SessionKey := {}
  facultyLoads : Std.HashMap String Nat := {}
  slotLoads : Std.HashMap String Nat := {}
  reasons : Std.HashMap SessionKey String := {}

namespace Timetable

/-- The empty timetable of a catalog. -/
def empty (e : Catalog) : Timetable := { catalog := e }

/-- Sort keys by course id, then session number. -/
def sortKeys (ks : List SessionKey) : List SessionKey :=
  stableSort SessionKey.lt ks

/-- Why a session cannot take a placement now, if it cannot. -/
def check (t : Timetable) (key : SessionKey) (p : Placement) : Option Conflict :=
  match t.catalog.course? key.course with
  | none => some (.unknownSession key)
  | some c =>
    if key.index < 0 ∨ key.index ≥ c.sessions then some (.unknownSession key)
    else if t.placements.contains key then some (.alreadyAssigned key)
    else if (t.catalog.slot? p.slot).isNone then some (.unknownSlot p.slot)
    else match t.catalog.room? p.room with
      | none => some (.unknownRoom p.room)
      | some room =>
        if !t.catalog.roomSuits room c then some (.unsuitableRoom room.id c.id)
        else if !t.catalog.facultyAvailable c.facultyId p.slot then
          some (.facultyUnavailable c.facultyId p.slot)
        else match t.facultyAt[(c.facultyId, p.slot)]? with
          | some other => some (.facultyBusy c.facultyId other p.slot)
          | none => match t.roomAt[(p.room, p.slot)]? with
            | some other => some (.roomBusy p.room other p.slot)
            | none =>
              match (t.catalog.students c.id).findSome? fun st =>
                  t.studentAt[(st, p.slot)]?.map fun other => (st, other) with
              | some (st, other) => some (.studentBusy st other p.slot)
              | none =>
                let cap := ((t.catalog.faculty? c.facultyId).map (·.maxWeeklySessions)).getD 0
                if cap > 0 ∧ ((t.facultyLoads[c.facultyId]?.getD 0 : Nat) : Int) ≥ cap then
                  some (.facultyCapReached c.facultyId cap)
                else none

/-- The staff member teaching a course (empty for an unknown course). -/
def facultyOf (t : Timetable) (courseId : String) : String :=
  ((t.catalog.course? courseId).map (·.facultyId)).getD ""

/-- Record a placement in the placements and in every index, without checking it. -/
def place (t : Timetable) (key : SessionKey) (p : Placement) : Timetable :=
  let f := t.facultyOf key.course
  { t with
    placements := t.placements.insert key p
    facultyAt := t.facultyAt.insert (f, p.slot) key
    roomAt := t.roomAt.insert (p.room, p.slot) key
    studentAt := (t.catalog.students key.course).foldl (fun m st => m.insert (st, p.slot) key) t.studentAt
    facultyLoads := t.facultyLoads.insert f (t.facultyLoads[f]?.getD 0 + 1)
    slotLoads := t.slotLoads.insert p.slot (t.slotLoads[p.slot]?.getD 0 + 1)
    reasons := t.reasons.erase key }

/-- Place a session, or say why it cannot be placed. -/
def assign (t : Timetable) (key : SessionKey) (p : Placement) : Except Conflict Timetable :=
  match t.check key p with
  | some c => .error c
  | none => .ok (t.place key p)

/-- Remove a session's placement, returning it, or `none` if the session was not placed. -/
def unassign (t : Timetable) (key : SessionKey) : Option Placement × Timetable :=
  match t.placements[key]? with
  | none => (none, t)
  | some p =>
    let f := t.facultyOf key.course
    (some p, { t with
      placements := t.placements.erase key
      facultyAt := t.facultyAt.erase (f, p.slot)
      roomAt := t.roomAt.erase (p.room, p.slot)
      studentAt := (t.catalog.students key.course).foldl (fun m st => m.erase (st, p.slot)) t.studentAt
      facultyLoads := t.facultyLoads.insert f (t.facultyLoads[f]?.getD 0 - 1)
      slotLoads := t.slotLoads.insert p.slot (t.slotLoads[p.slot]?.getD 0 - 1) })

/-- The placement of a session. -/
def lookup (t : Timetable) (key : SessionKey) : Option Placement :=
  t.placements[key]?

/-- Whether a session is placed. -/
def isPlaced (t : Timetable) (key : SessionKey) : Bool :=
  t.placements.contains key

/-- The number of placed sessions. -/
def size (t : Timetable) : Nat :=
  t.placements.size

/-- The placed sessions, by course id and session number. -/
def keys (t : Timetable) : List SessionKey :=
  sortKeys t.placements.keys

/-- The session a member of staff teaches in a slot. -/
def facultyOccupant (t : Timetable) (facultyId slotId : String) : Option SessionKey :=
  t.facultyAt[(facultyId, slotId)]?

/-- The session a room holds in a slot. -/
def roomOccupant (t : Timetable) (roomId slotId : String) : Option SessionKey :=
  t.roomAt[(roomId, slotId)]?

/-- The distinct sessions that the students of a course attend in a slot, sorted. -/
def studentOccupants (t : Timetable) (courseId slotId : String) : List SessionKey :=
  let found := (t.catalog.students courseId).filterMap fun st => t.studentAt[(st, slotId)]?
  sortKeys (found.foldl (fun acc k => if acc.contains k then acc else acc ++ [k]) [])

/-- The number of sessions a member of staff teaches. -/
def facultyLoad (t : Timetable) (facultyId : String) : Nat :=
  t.facultyLoads[facultyId]?.getD 0

/-- The number of sessions in a slot. -/
def slotLoad (t : Timetable) (slotId : String) : Nat :=
  t.slotLoads[slotId]?.getD 0

/-- Record why a session is not placed; a placed session keeps no reason. -/
def markUnscheduled (t : Timetable) (key : SessionKey) (reason : String) : Timetable :=
  if t.placements.contains key then t else { t with reasons := t.reasons.insert key reason }

/-- The reason recorded for a session. -/
def reason? (t : Timetable) (key : SessionKey) : Option String :=
  t.reasons[key]?

/-- Every recorded reason, by course id and session number. -/
def unscheduled (t : Timetable) : List (SessionKey × String) :=
  (sortKeys t.reasons.keys).map fun k => (k, t.reasons[k]?.getD "")

/-- The sessions of the catalog's courses that are not placed, in course order. -/
def missing (t : Timetable) : List SessionKey :=
  t.catalog.courses.toList.flatMap fun c =>
    ((List.range c.sessions.toNat).map fun (i : Nat) => ({ course := c.id, index := (i : Int) } : SessionKey)).filter
      fun k => !t.placements.contains k

/-- Assign a session of `t` again, at its placement in `t`, to a timetable over catalog `e`; a
session whose course `e` lacks is dropped. -/
def rebindStep (t : Timetable) (e : Catalog) (out : Timetable) (k : SessionKey) :
    Except Conflict Timetable :=
  if (e.course? k.course).isNone then pure out
  else match t.placements[k]? with
    | some p => out.assign k p
    | none => pure out

/-- Copy a reason to a timetable over catalog `e`, unless `e` lacks the session's course. -/
def rebindReason (e : Catalog) (out : Timetable) (k : SessionKey) (r : String) : Timetable :=
  if (e.course? k.course).isSome then out.markUnscheduled k r else out

/-- The same placements and reasons over another catalog: placements are assigned again in key
order, those of courses the catalog lacks are dropped, and the first refusal is the answer. -/
def rebind (t : Timetable) (e : Catalog) : Except Conflict Timetable := do
  let out ← t.keys.foldlM (t.rebindStep e) (empty e)
  pure (t.reasons.fold (rebindReason e) out)

/-- The non-zero staff loads. -/
def facultyLoadList (t : Timetable) : List (String × Nat) :=
  t.facultyLoads.toList.filter (·.2 > 0)

/-- The non-zero slot loads. -/
def slotLoadList (t : Timetable) : List (String × Nat) :=
  t.slotLoads.toList.filter (·.2 > 0)

end Timetable

end Timetabling
