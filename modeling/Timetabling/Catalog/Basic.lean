import Std.Data.HashMap
import Std.Data.HashSet
import Timetabling.Catalog.Records
import Timetabling.Number.Truncate

/-! # The validated catalog

`Catalog.build` checks a dataset and indexes it. Staff are checked first, in input order, then
slots ordered by (day, period), then rooms and courses ordered by id; the first fault found is the
answer. Ids must be present and unique within their kind, a course may not have a negative
session count, and its staff member and batches must exist. A batch id may repeat: the last
record wins.

The queries answer what scheduling needs: a course's enrolled students (its own, non-empty, and
those of its batches), whether a room suits a course, whether a member of staff is available in a
slot, and which period closes each day. -/

namespace Timetabling

/-- Why a dataset is refused. -/
inductive CatalogError where
  | facultyIdMissing
  | duplicateFaculty (id : String)
  | slotIdMissing
  | duplicateSlot (id : String)
  | roomIdMissing
  | duplicateRoom (id : String)
  | courseIdMissing
  | duplicateCourse (id : String)
  | negativeSessions (course : String)
  | unknownFaculty (course faculty : String)
  | unknownBatch (course batch : String)
deriving DecidableEq, Repr

namespace CatalogError

/-- The text of a refusal. -/
def message : CatalogError → String
  | .facultyIdMissing => "faculty id is required"
  | .duplicateFaculty id => s!"duplicate faculty {id}"
  | .slotIdMissing => "time slot id is required"
  | .duplicateSlot id => s!"duplicate time slot {id}"
  | .roomIdMissing => "room id is required"
  | .duplicateRoom id => s!"duplicate room {id}"
  | .courseIdMissing => "course id is required"
  | .duplicateCourse id => s!"duplicate course {id}"
  | .negativeSessions c => s!"course {c} has negative session count"
  | .unknownFaculty c f => s!"course {c} references unknown faculty {f}"
  | .unknownBatch c b => s!"course {c} references unknown batch {b}"

end CatalogError

/-- Sort stably by a strict order: of two elements neither before the other, the earlier stays
first. -/
def stableSort {α : Type} (lt : α → α → Bool) (xs : List α) : List α :=
  xs.mergeSort fun a b => !lt b a

/-- Sort strings by code point (the bytewise order of their UTF-8 text). -/
def sortStrings (xs : List String) : List String :=
  stableSort (fun a b => decide (a < b)) xs

/-- The distinct elements of a list, in order of first occurrence. -/
def dedupStrings (xs : List String) : List String :=
  (xs.foldl (fun (acc : List String × Std.HashSet String) x =>
    if acc.2.contains x then acc else (x :: acc.1, acc.2.insert x)) ([], {})).1.reverse

/-- A validated, indexed dataset. -/
structure Catalog where
  /-- Courses, stably sorted by id. -/
  courses : Array Course
  /-- Rooms, stably sorted by id. -/
  rooms : Array Room
  /-- Slots, stably sorted by (day, period). -/
  slots : Array TimeSlot
  /-- Staff, sorted by id. -/
  facultyList : List Faculty
  /-- Batches, one per id (the last record of an id), sorted by id. -/
  batchList : List Batch
  facultyById : Std.HashMap String Faculty
  courseIndex : Std.HashMap String Nat
  roomIndex : Std.HashMap String Nat
  slotIndex : Std.HashMap String Nat
  /-- Sorted distinct students of each course. -/
  studentsById : Std.HashMap String (List String)
  studentSets : Std.HashMap String (Std.HashSet String)
  /-- Required features of each course, without empty names. -/
  featureSets : Std.HashMap String (Std.HashSet String)
  roomFeatures : Std.HashMap String (Std.HashSet String)
  /-- Slots each member of staff may teach in; empty means all. -/
  available : Std.HashMap String (Std.HashSet String)
  /-- The last period of each day that has a slot. -/
  lastPeriod : Std.HashMap Int Int

namespace Catalog

/-- A set of the non-empty names of a list. -/
def nameSet (xs : List String) : Std.HashSet String :=
  xs.foldl (fun s x => if x == "" then s else s.insert x) {}

/-- Index staff in input order. -/
def indexFaculty (fs : List Faculty) : Except CatalogError (Std.HashMap String Faculty) :=
  fs.foldlM (fun m f =>
    if f.id == "" then .error .facultyIdMissing
    else if m.contains f.id then .error (.duplicateFaculty f.id)
    else pure (m.insert f.id f)) {}

/-- Index slots in their sorted order, recording the last period of each day. -/
def indexSlots (slots : List TimeSlot) :
    Except CatalogError (Std.HashMap String Nat × Std.HashMap Int Int) :=
  (slots.zipIdx).foldlM (fun (idx, last) (s, i) =>
    if s.id == "" then .error .slotIdMissing
    else if idx.contains s.id then .error (.duplicateSlot s.id)
    else
      let last := match last[s.day]? with
        | some p => if s.period > p then last.insert s.day s.period else last
        | none => last.insert s.day s.period
      pure (idx.insert s.id i, last)) ({}, {})

/-- Index rooms in their sorted order. -/
def indexRooms (rooms : List Room) : Except CatalogError (Std.HashMap String Nat) :=
  (rooms.zipIdx).foldlM (fun idx (r, i) =>
    if r.id == "" then .error .roomIdMissing
    else if idx.contains r.id then .error (.duplicateRoom r.id)
    else pure (idx.insert r.id i)) {}

/-- The students of a course: its own non-empty ids and every id of its batches. -/
def courseStudents (batches : Std.HashMap String Batch) (c : Course) :
    Except CatalogError (List String) := do
  let fromBatches ← c.batchIds.mapM fun b =>
    match batches[b]? with
    | some batch => pure batch.studentIds
    | none => .error (.unknownBatch c.id b)
  pure (sortStrings (dedupStrings (c.studentIds.filter (· != "") ++ fromBatches.flatten)))

/-- Index courses in their sorted order. -/
def indexCourses (faculty : Std.HashMap String Faculty) (batches : Std.HashMap String Batch)
    (courses : List Course) :
    Except CatalogError (Std.HashMap String Nat × Std.HashMap String (List String)) :=
  (courses.zipIdx).foldlM (fun (idx, studs) (c, i) => do
    if c.id == "" then throw .courseIdMissing
    if idx.contains c.id then throw (.duplicateCourse c.id)
    if c.sessions < 0 then throw (.negativeSessions c.id)
    if !faculty.contains c.facultyId then throw (.unknownFaculty c.id c.facultyId)
    let ss ← courseStudents batches c
    pure (idx.insert c.id i, studs.insert c.id ss)) ({}, {})

/-- Check and index a dataset. -/
def build (d : Dataset) : Except CatalogError Catalog := do
  let facultyById ← indexFaculty d.faculty
  let batches : Std.HashMap String Batch := d.batches.foldl (fun m b => m.insert b.id b) {}
  let slots := stableSort (fun a b => if a.day == b.day then a.period < b.period else a.day < b.day)
    d.timeSlots
  let (slotIndex, lastPeriod) ← indexSlots slots
  let rooms := stableSort (fun a b => decide (a.id < b.id)) d.rooms
  let roomIndex ← indexRooms rooms
  let courses := stableSort (fun a b => decide (a.id < b.id)) d.courses
  let (courseIndex, studentsById) ← indexCourses facultyById batches courses
  let facultyList := stableSort (fun a b => decide (a.id < b.id)) (d.faculty)
  let batchList := stableSort (fun a b => decide (a.id < b.id)) (batches.toList.map (·.2))
  pure {
    courses := courses.toArray
    rooms := rooms.toArray
    slots := slots.toArray
    facultyList, batchList, facultyById, courseIndex, roomIndex, slotIndex, studentsById, lastPeriod
    studentSets := studentsById.map fun _ ss => ss.foldl (fun s x => s.insert x) {}
    featureSets := courses.foldl (fun m c => m.insert c.id (nameSet c.requiredFeatures)) {}
    roomFeatures := rooms.foldl (fun m r => m.insert r.id (nameSet r.features)) {}
    available := d.faculty.foldl (fun m f => m.insert f.id (nameSet f.availableSlots)) {} }

/-- The course with an id. -/
def course? (e : Catalog) (id : String) : Option Course :=
  e.courseIndex[id]? >>= fun i => e.courses[i]?

/-- The member of staff with an id. -/
def faculty? (e : Catalog) (id : String) : Option Faculty :=
  e.facultyById[id]?

/-- The room with an id. -/
def room? (e : Catalog) (id : String) : Option Room :=
  e.roomIndex[id]? >>= fun i => e.rooms[i]?

/-- The slot with an id. -/
def slot? (e : Catalog) (id : String) : Option TimeSlot :=
  e.slotIndex[id]? >>= fun i => e.slots[i]?

/-- The position of a slot in the week, or `-1` for an unknown slot. -/
def slotOrder (e : Catalog) (id : String) : Int :=
  match e.slotIndex[id]? with
  | some i => i
  | none => -1

/-- The sorted distinct students of a course (none for an unknown course). -/
def students (e : Catalog) (courseId : String) : List String :=
  e.studentsById[courseId]?.getD []

/-- The number of students of a course. -/
def enrollment (e : Catalog) (courseId : String) : Nat :=
  (e.students courseId).length

/-- The number of students two courses share. -/
def sharedStudents (e : Catalog) (a b : String) : Nat :=
  match e.studentSets[b]? with
  | some other => (e.students a).countP other.contains
  | none => 0

/-- Whether a member of staff may teach in a slot: unknown staff never, staff without a list of
slots always. -/
def facultyAvailable (e : Catalog) (facultyId slotId : String) : Bool :=
  match e.available[facultyId]? with
  | some set => set.isEmpty || set.contains slotId
  | none => false

/-- Whether a room suits a course: it seats everyone enrolled in the course of that id, it is not
reserved for another department, and it has every feature that course requires. -/
def roomSuits (e : Catalog) (room : Room) (course : Course) : Bool :=
  decide (room.capacity ≥ (e.enrollment course.id : Int)) &&
    !(room.department != "" && course.department != "" && room.department != course.department) &&
    (let owned := e.roomFeatures[room.id]?.getD {}
     (e.featureSets[course.id]?.getD {}).toList.all owned.contains)

/-- Whether a slot is the last period of its day. -/
def isLastPeriod (e : Catalog) (slot : TimeSlot) : Bool :=
  e.lastPeriod[slot.day]? == some slot.period

/-- The number of periods in the longest day: one more than the largest last period. The count is
kept in 64 bits, so a day that ends at the largest period wraps around and counts for nothing. -/
def periodsPerDay (e : Catalog) : Int :=
  e.lastPeriod.fold (fun acc _ last => max acc (wrapInt64 (last + 1))) 0

/-- The number of sessions of all courses. -/
def totalSessions (e : Catalog) : Int :=
  e.courses.foldl (fun acc c => acc + c.sessions) 0

/-- The dataset behind the catalog, in its sorted orders. -/
def toDataset (e : Catalog) : Dataset :=
  { courses := e.courses.toList, faculty := e.facultyList, rooms := e.rooms.toList,
    timeSlots := e.slots.toList, batches := e.batchList }

/-- The catalog with one more course. -/
def withCourse (e : Catalog) (c : Course) : Except CatalogError Catalog :=
  build { e.toDataset with courses := e.courses.toList ++ [c] }

/-- The catalog without the courses of an id. -/
def withoutCourse (e : Catalog) (id : String) : Except CatalogError Catalog :=
  build { e.toDataset with courses := e.courses.toList.filter (·.id != id) }

end Catalog

end Timetabling
