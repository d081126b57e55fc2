import Timetabling.Timetable.Basic
import Timetabling.Json.Decode

/-! # JSON forms of timetables

A session key is written `{course_id, session}` (the session counting from zero), a placement
`{slot_id, room_id}`. A timetable is written as its placements in key order, its unscheduled
sessions with their reasons, the sessions it is still missing, and the load of each member of
staff and each slot. A timetable is read back from placements and unscheduled sessions, placing
them in order. A catalog is written as the facts it derives from its records. -/

namespace Timetabling

/-- The JSON form of a session key. -/
def SessionKey.toJson (k : SessionKey) : Json :=
  .object [("course_id", .string k.course), ("session", .int k.index)]

/-- The JSON form of a placement. -/
def Placement.toJson (p : Placement) : Json :=
  .object [("slot_id", .string p.slot), ("room_id", .string p.room)]

/-- The JSON form of a refusal: its kind, message, and the session it collides with. -/
def Conflict.toJson (c : Conflict) : Json :=
  .object ([("ok", .bool false), ("kind", .string c.kind.name), ("message", .string c.message)] ++
    (c.other?.map fun k => ("with", k.toJson)).toList)

/-- The JSON form of what a catalog derives from its records: its identifiers, each course's
students, enrolment and suitable rooms, each staff member's free slots, the last periods of the
days, and the students each pair of courses shares. -/
def Catalog.toJson (e : Catalog) : Json :=
  let cs := e.courses.toList
  let pairs := cs.zipIdx.flatMap fun (a, i) => (cs.drop (i + 1)).filterMap fun b =>
    let n := e.sharedStudents a.id b.id
    if n > 0 then some (a.id ++ "|" ++ b.id, Json.nat n) else none
  .object [("courses", .strings (cs.map (·.id))), ("rooms", .strings (e.rooms.toList.map (·.id))),
    ("slots", .strings (e.slots.toList.map (·.id))), ("faculty", .strings (e.facultyList.map (·.id))),
    ("students", .object (cs.map fun c => (c.id, .strings (e.students c.id)))),
    ("enrollment", .object (cs.map fun c => (c.id, .nat (e.enrollment c.id)))),
    ("room_suits", .object (cs.map fun c =>
      (c.id, .strings ((e.rooms.toList.filter (e.roomSuits · c)).map (·.id))))),
    ("faculty_available", .object (e.facultyList.map fun f =>
      (f.id, .strings ((e.slots.toList.filter fun s => e.facultyAvailable f.id s.id).map (·.id))))),
    ("is_last_period", .object (e.slots.toList.map fun s => (s.id, .bool (e.isLastPeriod s)))),
    ("shared_students", .object pairs), ("periods_per_day", .int e.periodsPerDay),
    ("total_sessions", .int e.totalSessions)]

namespace Timetable

/-- The JSON form of a timetable. -/
def toJson (t : Timetable) : Json :=
  let loads (xs : List (String × Nat)) : Json := .object (xs.map fun (k, n) => (k, .nat n))
  .object [("assignments", .array (t.keys.map fun k =>
      let p := (t.lookup k).getD default
      .object [("course_id", .string k.course), ("session", .int k.index), ("slot_id", .string p.slot),
        ("room_id", .string p.room)])),
    ("unscheduled", .array (t.unscheduled.map fun (k, r) =>
      .object [("course_id", .string k.course), ("session", .int k.index), ("reason", .string r)])),
    ("missing", .array (t.missing.map SessionKey.toJson)),
    ("faculty_load", loads t.facultyLoadList), ("slot_load", loads t.slotLoadList)]

/-- A timetable of a catalog with the given sessions placed, in order, and the given sessions
marked unscheduled; the first placement refused stops it. -/
def ofSessions (e : Catalog) (placed : List (SessionKey × Placement)) (unplaced : List (SessionKey × String)) :
    Except Conflict Timetable := do
  let t ← placed.foldlM (fun t (k, p) => t.assign k p) (Timetable.empty e)
  pure (unplaced.foldl (fun t (k, r) => t.markUnscheduled k r) t)

end Timetable

namespace Json

/-- A session key. -/
def asSessionKey (j : Json) : Except DecodeError SessionKey := do
  let j ← asRecord j
  pure ⟨← j.get "course_id" asString, ← j.get "session" asInt⟩

/-- A placed session: its key and placement. -/
def asPlacedSession (j : Json) : Except DecodeError (SessionKey × Placement) := do
  pure (← asSessionKey j, ⟨← j.get "slot_id" asString, ← j.get "room_id" asString⟩)

/-- An unscheduled session: its key and the reason. -/
def asUnplacedSession (j : Json) : Except DecodeError (SessionKey × String) := do
  pure (← asSessionKey j, ← j.get "reason" asString)

end Json

end Timetabling
