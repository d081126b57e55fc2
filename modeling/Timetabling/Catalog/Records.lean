/-! # Catalog records

The raw records a timetable is built from, as they arrive: courses, teaching staff, rooms, weekly
time slots and student batches. Nothing is validated here; `Catalog.build` does that. A dataset
is the five lists together, and `Dataset.filter` narrows its courses to a department and to
batches. -/

namespace Timetabling

/-- A course, taught by one member of staff in a number of weekly sessions. -/
structure Course where
  id : String := ""
  code : String := ""
  department : String := ""
  facultyId : String := ""
  studentIds : List String := []
  batchIds : List String := []
  sessions : Int := 0
  credits : Float := 0
  requiredFeatures : List String := []
  subjectType : String := ""
deriving Inhabited, Repr

/-- A member of teaching staff: a weekly cap on sessions (none when not positive), the slots they
can teach in (all when empty), and a preference weight per slot. -/
structure Faculty where
  id : String := ""
  department : String := ""
  maxWeeklySessions : Int := 0
  availableSlots : List String := []
  preferences : List (String × Float) := []
deriving Inhabited, Repr

/-- A room with a seat count and features; a department, if given, reserves it. -/
structure Room where
  id : String := ""
  capacity : Int := 0
  features : List String := []
  department : String := ""
deriving Inhabited, Repr

/-- A weekly time slot: a day, a period within the day, and its clock times. -/
structure TimeSlot where
  id : String := ""
  day : Int := 0
  period : Int := 0
  start : String := ""
  finish : String := ""
deriving Inhabited, Repr

/-- A group of students enrolled together. -/
structure Batch where
  id : String := ""
  department : String := ""
  studentIds : List String := []
deriving Inhabited, Repr

/-- The five record lists a catalog is built from. -/
structure Dataset where
  courses : List Course := []
  faculty : List Faculty := []
  rooms : List Room := []
  timeSlots : List TimeSlot := []
  batches : List Batch := []
deriving Inhabited, Repr

namespace Faculty

/-- The preference weight of a slot, if one is given. -/
def preference? (f : Faculty) (slot : String) : Option Float :=
  (f.preferences.find? (·.1 == slot)).map (·.2)

end Faculty

namespace Dataset

/-- Whether a course survives a filter: its department, when both are given, must be the wanted
one, and when batches are wanted it must take one of them. -/
def keeps (department : String) (wanted : List String) (c : Course) : Bool :=
  !(department != "" && c.department != "" && c.department != department) &&
    (wanted.isEmpty || c.batchIds.any wanted.contains)

/-- Keep only the courses of a department and of the wanted batches; empty batch ids are ignored.
Staff, rooms, slots and batches are kept whole. -/
def filter (d : Dataset) (department : String) (batchIds : List String) : Dataset :=
  { d with courses := d.courses.filter (keeps department (batchIds.filter (· != ""))) }

@[simp] theorem filter_faculty (d : Dataset) (dep : String) (bs : List String) :
    (d.filter dep bs).faculty = d.faculty := rfl

@[simp] theorem filter_courses (d : Dataset) (dep : String) (bs : List String) :
    (d.filter dep bs).courses = d.courses.filter (keeps dep (bs.filter (· != ""))) := rfl

end Dataset

end Timetabling
