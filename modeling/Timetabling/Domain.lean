import Timetabling.Timetable.Basic

/-! # Candidate placements

The domain of a course lists every placement that its static constraints allow: a slot where its
staff member is available and a room that suits it. Slots come in week order, and within a slot
the rooms come from the smallest, rooms of equal size in id order. What the domain leaves out
is exactly what `Timetable.check` refuses on an empty timetable for reasons other than a busy
resource or a weekly cap. -/

namespace Timetabling

/-- The placements a course's static constraints allow, slot by slot, smallest room first. -/
def Catalog.candidates (e : Catalog) (c : Course) : List Placement :=
  let rooms := stableSort (fun a b => decide (a.capacity < b.capacity))
    (e.rooms.toList.filter fun r => e.roomSuits r c)
  e.slots.toList.flatMap fun s =>
    if e.facultyAvailable c.facultyId s.id then rooms.map fun r => ⟨s.id, r.id⟩ else []

/-- Candidate placements by course id. -/
structure Domain where
  byCourse : Std.HashMap String (List Placement) := {}

namespace Domain

/-- The candidates of every course of a catalog. -/
def build (e : Catalog) : Domain :=
  ⟨e.courses.foldl (fun m c => m.insert c.id (e.candidates c)) {}⟩

/-- Add or replace the candidates of one course, computed against a catalog. -/
def extend (d : Domain) (e : Catalog) (c : Course) : Domain :=
  ⟨d.byCourse.insert c.id (e.candidates c)⟩

/-- The candidates of a course (none for an unknown course). -/
def forCourse (d : Domain) (courseId : String) : List Placement :=
  d.byCourse[courseId]?.getD []

/-- The candidates of a session's course. -/
def forKey (d : Domain) (k : SessionKey) : List Placement :=
  d.forCourse k.course

/-- The number of candidates of a course. -/
def options (d : Domain) (courseId : String) : Nat :=
  (d.forCourse courseId).length

/-- The distinct slots of a list of placements, in order of first occurrence. -/
def slotsOf (ps : List Placement) : List String :=
  dedupStrings (ps.map (·.slot))

/-- The number of distinct slots among a course's candidates. -/
def distinctSlots (d : Domain) (courseId : String) : Nat :=
  (slotsOf (d.forCourse courseId)).length

end Domain

end Timetabling
