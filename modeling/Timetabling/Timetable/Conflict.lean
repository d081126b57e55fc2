/-! # Sessions, placements and conflicts

A course with `n` weekly sessions has session keys `course#0` to `course#(n-1)`. A placement puts
one session in a time slot and a room. A conflict says why a placement is refused; its kind is
the coarse class that the search and repair heuristics count. -/

namespace Timetabling

/-- One weekly session of a course. -/
structure SessionKey where
  course : String
  index : Int
deriving DecidableEq, Hashable, Repr, Inhabited

namespace SessionKey

/-- The key's text, `course#index`. -/
def text (k : SessionKey) : String :=
  s!"{k.course}#{k.index}"

/-- Keys are ordered by course id, then by session number. -/
def lt (a b : SessionKey) : Bool :=
  decide (a.course < b.course) || (a.course == b.course && decide (a.index < b.index))

end SessionKey

/-- Where a session takes place. -/
structure Placement where
  slot : String
  room : String
deriving DecidableEq, Hashable, Repr, Inhabited

/-- The class of a refusal. -/
inductive ConflictKind where
  | none
  | faculty
  | room
  | student
  | capacity
  | availability
  | facultyCap
  | unknown
  | duplicate
deriving DecidableEq, Repr, Inhabited

namespace ConflictKind

/-- The name of a kind, as reported. -/
def name : ConflictKind → String
  | .none => "none"
  | .faculty => "faculty"
  | .room => "room"
  | .student => "student"
  | .capacity => "capacity"
  | .availability => "availability"
  | .facultyCap => "faculty_cap"
  | .unknown => "unknown"
  | .duplicate => "duplicate"

/-- Every kind, in declaration order. -/
def all : List ConflictKind :=
  [.none, .faculty, .room, .student, .capacity, .availability, .facultyCap, .unknown, .duplicate]

end ConflictKind

/-- Why a session cannot take a placement. -/
inductive Conflict where
  | unknownSession (key : SessionKey)
  | alreadyAssigned (key : SessionKey)
  | unknownSlot (slot : String)
  | unknownRoom (room : String)
  | unsuitableRoom (room course : String)
  | facultyUnavailable (faculty slot : String)
  | facultyBusy (faculty : String) (other : SessionKey) (slot : String)
  | roomBusy (room : String) (other : SessionKey) (slot : String)
  | studentBusy (student : String) (other : SessionKey) (slot : String)
  | facultyCapReached (faculty : String) (cap : Int)
deriving DecidableEq, Repr

namespace Conflict

/-- The class of a conflict. -/
def kind : Conflict → ConflictKind
  | .unknownSession _ | .unknownSlot _ | .unknownRoom _ => .unknown
  | .alreadyAssigned _ => .duplicate
  | .unsuitableRoom .. => .capacity
  | .facultyUnavailable .. => .availability
  | .facultyBusy .. => .faculty
  | .roomBusy .. => .room
  | .studentBusy .. => .student
  | .facultyCapReached .. => .facultyCap

/-- The session already holding the contested resource, if any. -/
def other? : Conflict → Option SessionKey
  | .facultyBusy _ k _ | .roomBusy _ k _ | .studentBusy _ k _ => some k
  | _ => none

/-- The text of a conflict. -/
def message : Conflict → String
  | .unknownSession k => s!"unknown session {k.text}"
  | .alreadyAssigned k => s!"session {k.text} already assigned"
  | .unknownSlot s => s!"unknown time slot {s}"
  | .unknownRoom r => s!"unknown room {r}"
  | .unsuitableRoom r c => s!"room {r} does not suit course {c}"
  | .facultyUnavailable f s => s!"faculty {f} unavailable in {s}"
  | .facultyBusy f k s => s!"faculty {f} already teaches {k.text} in {s}"
  | .roomBusy r k s => s!"room {r} already hosts {k.text} in {s}"
  | .studentBusy st k s => s!"student {st} already attends {k.text} in {s}"
  | .facultyCapReached f cap => s!"faculty {f} reached weekly cap {cap}"

end Conflict

end Timetabling
