import Timetabling.Timetable.Json
import Timetabling.Catalog.Json
import Timetabling.Text.Quoted

/-! # Editing timetables step by step

An edit session works on a current timetable and may keep a spare one: `clone` keeps a copy of
the current timetable, `swap` exchanges the two, and `rebind` moves the current timetable onto
new records (dropping the spare). The other edits place, check, remove and look up sessions,
mark sessions unscheduled, and ask who holds a slot and how loaded staff and slots are. Each
edit answers a small JSON report; an edit that is refused leaves the timetables as they were. -/

namespace Timetabling

/-- An edit of a timetable, or a question about it. -/
inductive Edit where
  | assign (k : SessionKey) (p : Placement)
  | check (k : SessionKey) (p : Placement)
  | unassign (k : SessionKey)
  | lookup (k : SessionKey)
  | markUnscheduled (k : SessionKey) (reason : String)
  | reason (k : SessionKey)
  | facultyOccupant (faculty slot : String)
  | roomOccupant (room slot : String)
  | studentOccupants (course slot : String)
  | facultyLoad (faculty : String)
  | slotLoad (slot : String)
  | clone
  | swap
  | rebind (records : Option Dataset)
  | snapshot

/-- A current timetable and an optional spare. -/
structure EditSession where
  current : Timetable
  spare : Option Timetable := none

namespace EditSession

/-- A report that an edit went through or not. -/
def done (ok : Bool) : Json := .object [("ok", .bool ok)]

/-- A report of a placement, if there is one. -/
def placementReport (x : Option Placement) : Json :=
  .object [("ok", .bool x.isSome), ("placement", (x.getD ⟨"", ""⟩).toJson)]

/-- A report of a session key, if there is one. -/
def keyReport (x : Option SessionKey) : Json :=
  .object [("ok", .bool x.isSome), ("key", (x.getD ⟨"", 0⟩).toJson)]

/-- A report of a refusal with its message. -/
def refusal (message : String) (kind : Option String := none) : Json :=
  .object ([("ok", .bool false), ("error", .string message)] ++ (kind.map fun k => ("kind", .string k)).toList)

/-- Apply one edit, answering its report. -/
def step (s : EditSession) : Edit → Json × EditSession
  | .assign k p =>
    match s.current.assign k p with
    | .ok t => (done true, { s with current := t })
    | .error c => (c.toJson, s)
  | .check k p => (((s.current.check k p).map Conflict.toJson).getD (done true), s)
  | .unassign k => let (x, t) := s.current.unassign k; (placementReport x, { s with current := t })
  | .lookup k => (placementReport (s.current.lookup k), s)
  | .markUnscheduled k reason => (done true, { s with current := s.current.markUnscheduled k reason })
  | .reason k =>
    let r := s.current.reason? k
    (.object [("ok", .bool r.isSome), ("reason", .string (r.getD ""))], s)
  | .facultyOccupant f slot => (keyReport (s.current.facultyOccupant f slot), s)
  | .roomOccupant room slot => (keyReport (s.current.roomOccupant room slot), s)
  | .studentOccupants course slot =>
    (.object [("keys", .array ((s.current.studentOccupants course slot).map SessionKey.toJson))], s)
  | .facultyLoad f => (.object [("load", .nat (s.current.facultyLoad f))], s)
  | .slotLoad slot => (.object [("load", .nat (s.current.slotLoad slot))], s)
  | .clone => (done true, { s with spare := some s.current })
  | .swap =>
    match s.spare with
    | some t => (done true, ⟨t, some s.current⟩)
    | none => (done false, s)
  | .rebind none => (refusal "dataset is required", s)
  | .rebind (some d) =>
    match Catalog.build d with
    | .error err => (refusal err.message, s)
    | .ok e =>
      match s.current.rebind e with
      | .ok t => (done true, ⟨t, none⟩)
      | .error c => (refusal c.message (some c.kind.name), s)
  | .snapshot => (s.current.toJson, s)

end EditSession

namespace Json

/-- An edit, `{op, course_id, session, slot_id, room_id, faculty_id, reason, dataset}`; an unknown
`op` is refused with its text. -/
def asEdit (j : Json) : Except DecodeError (Except String Edit) := do
  let j ← asRecord j
  let op ← j.get "op" asString
  let k : SessionKey := ⟨← j.get "course_id" asString, ← j.get "session" asInt⟩
  let p : Placement := ⟨← j.get "slot_id" asString, ← j.get "room_id" asString⟩
  let f ← j.get "faculty_id" asString
  let reason ← j.get "reason" asString
  let d ← j.getOpt "dataset" asDataset
  pure <| match op with
    | "assign" => .ok (.assign k p)
    | "check" => .ok (.check k p)
    | "unassign" => .ok (.unassign k)
    | "lookup" => .ok (.lookup k)
    | "mark_unscheduled" => .ok (.markUnscheduled k reason)
    | "unscheduled_reason" => .ok (.reason k)
    | "faculty_occupant" => .ok (.facultyOccupant f p.slot)
    | "room_occupant" => .ok (.roomOccupant p.room p.slot)
    | "student_occupants" => .ok (.studentOccupants k.course p.slot)
    | "faculty_load" => .ok (.facultyLoad f)
    | "slot_load" => .ok (.slotLoad p.slot)
    | "clone" => .ok .clone
    | "swap" => .ok .swap
    | "rebind" => .ok (.rebind d)
    | "snapshot" => .ok .snapshot
    | _ => .error ("unknown schedule op " ++ Text.quoted op)

end Json

end Timetabling
