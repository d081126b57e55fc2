import Timetabling.Timetable.Basic

/-! # Validation and quality

Validation re-derives every hard constraint from the placements alone, without the timetable's
own indexes, and lists what is broken:

* a placement of an unknown course, room or slot (nothing else is checked for it);
* a room too small, lacking required features, or reserved for another department;
* staff unavailable in the slot, or a session number the course does not have;
* staff, a room or a student booked twice in one slot (a student clash is reported once per
  session, for the first student found);
* staff over their weekly cap;
* a missing session that carries no reason.

The quality report of a timetable counts the violations by kind and the recorded reasons, and
measures idle periods between a staff member's sessions of a day, the spread of staff loads,
and how full the rooms are. -/

namespace Timetabling

/-- One broken hard constraint: its kind, the session concerned, the session it clashes with,
and a message. -/
structure Violation where
  kind : ConflictKind
  key : SessionKey := ⟨"", 0⟩
  other : Option SessionKey := none
  message : String

/-- The state of the validator: who holds each staff member, room and student per slot, the
staff loads, and the violations found. -/
structure Validator where
  staffAt : Std.HashMap (String × String) SessionKey := {}
  roomAt : Std.HashMap (String × String) SessionKey := {}
  studentAt : Std.HashMap (String × String) SessionKey := {}
  loads : Std.HashMap String Nat := {}
  found : List Violation := []

namespace Validator

/-- Record a violation. -/
def add (v : Validator) (kind : ConflictKind) (key : SessionKey) (other : Option SessionKey)
    (message : String) : Validator :=
  { v with found := v.found ++ [{ kind, key, other, message }] }

/-- Record the first student of a list already booked in a slot, booking the students before it. -/
def bookStudents (v : Validator) (key : SessionKey) (slot : String) : List String → Validator
  | [] => v
  | st :: rest =>
    match v.studentAt[(st, slot)]? with
    | some other => v.add .student key (some other) s!"student {st} double booked in {slot}"
    | none => bookStudents { v with studentAt := v.studentAt.insert (st, slot) key } key slot rest

end Validator

/-- The required features of a course that a room lacks, sorted. -/
def Room.missingFeatures (room : Room) (course : Course) : List String :=
  sortStrings (course.requiredFeatures.filter fun f => !room.features.contains f)

namespace Timetable

/-- Check one placement. -/
def checkPlacement (t : Timetable) (v : Validator) (key : SessionKey) : Validator :=
  let e := t.catalog
  let p := (t.lookup key).getD default
  match e.course? key.course with
  | none => v.add .unknown key none s!"unknown course {key.course}"
  | some course =>
    match e.room? p.room with
    | none => v.add .unknown key none s!"unknown room {p.room}"
    | some room =>
      if (e.slot? p.slot).isNone then v.add .unknown key none s!"unknown slot {p.slot}"
      else
        let enrolled : Int := e.enrollment course.id
        let v := if room.capacity < enrolled then
            v.add .capacity key none s!"room {room.id} holds {room.capacity}, course {course.id} enrols {enrolled}"
          else v
        let missing := room.missingFeatures course
        let lacking := String.intercalate "," missing
        let v := if !missing.isEmpty then
            v.add .capacity key none s!"room {room.id} lacks features {lacking}"
          else if !e.roomSuits room course && room.capacity ≥ enrolled then
            v.add .capacity key none s!"room {room.id} is restricted to department {room.department}"
          else v
        let v := if !e.facultyAvailable course.facultyId p.slot then
            v.add .availability key none s!"faculty {course.facultyId} unavailable in {p.slot}"
          else v
        let v := if key.index < 0 ∨ key.index ≥ course.sessions then
            v.add .duplicate key none s!"course {course.id} has no session {key.index}"
          else v
        let f := course.facultyId
        let v := { v with loads := v.loads.insert f (v.loads[f]?.getD 0 + 1) }
        let v := match v.staffAt[(f, p.slot)]? with
          | some other => v.add .faculty key (some other) s!"faculty {f} double booked in {p.slot}"
          | none => { v with staffAt := v.staffAt.insert (f, p.slot) key }
        let v := match v.roomAt[(room.id, p.slot)]? with
          | some other => v.add .room key (some other) s!"room {room.id} double booked in {p.slot}"
          | none => { v with roomAt := v.roomAt.insert (room.id, p.slot) key }
        v.bookStudents key p.slot (e.students course.id)

/-- Every broken hard constraint, placements in key order first, then staff caps in staff id
order, then missing sessions without a reason in catalog order. -/
def violations (t : Timetable) : List Violation :=
  let v := t.keys.foldl t.checkPlacement {}
  let v := t.catalog.facultyList.foldl (fun v f =>
    let load : Nat := v.loads[f.id]?.getD 0
    if f.maxWeeklySessions > 0 ∧ (load : Int) > f.maxWeeklySessions then
      v.add .facultyCap ⟨"", 0⟩ none s!"faculty {f.id} teaches {load} sessions, cap {f.maxWeeklySessions}"
    else v) v
  let v := t.missing.foldl (fun v k =>
    if (t.reason? k).isSome then v
    else v.add .unknown k none s!"session {k.text} neither assigned nor reported unscheduled") v
  v.found

/-- The message of a failed validation. -/
def invariantMessage (vs : List Violation) : String :=
  let first := (vs.head?.map (·.message)).getD ""
  s!"schedule invariant violated: {vs.length} violations, first: {first}"

/-- Nothing, when no hard constraint is broken; otherwise a message naming how many are and the
first. -/
def validate (t : Timetable) : Except String Unit :=
  match t.violations with
  | [] => .ok ()
  | vs => .error (invariantMessage vs)

/-- The idle periods between each staff member's first and last session of each day, summed,
with the number of staff-days taught. -/
def staffGaps (t : Timetable) : Float × Nat :=
  let e := t.catalog
  let days : Std.HashMap (String × Int) (List Int) := t.keys.foldl (fun m k =>
    let p := (t.lookup k).getD default
    let course := (e.course? k.course).getD {}
    let slot := (e.slot? p.slot).getD {}
    m.insert (course.facultyId, slot.day) ((m[(course.facultyId, slot.day)]?.getD []) ++ [slot.period])) {}
  let gaps := days.fold (fun acc _ periods =>
    let sorted := periods.mergeSort (fun a b => decide (a ≤ b))
    (sorted.zip sorted.tail).foldl (fun acc (a, b) => if b - a > 1 then acc + (b - a - 1) else acc) acc) (0 : Int)
  (Float.ofInt gaps, days.size)

/-- One less the coefficient of variation of the staff loads, at least zero; one without staff
or load. -/
def workloadBalance (t : Timetable) : Float :=
  let staff := t.catalog.facultyList
  if staff.isEmpty then 1
  else
    let n := Float.ofNat staff.length
    let mean := staff.foldl (fun s f => s + Float.ofNat (t.facultyLoad f.id)) 0 / n
    if mean == 0 then 1
    else
      let variance := staff.foldl (fun s f => let x := Float.ofNat (t.facultyLoad f.id) - mean; s + x * x) 0
      let cv := Float.sqrt (variance / n) / mean
      if 1 - cv > 0 then 1 - cv else 0

/-- The mean over placed sessions of enrollment over room seats, capped at one (a room without
seats adds nothing). -/
def roomUtilization (t : Timetable) : Float :=
  let e := t.catalog
  if t.size == 0 then 0
  else
    let total := t.keys.foldl (fun acc k =>
      let room := (e.room? ((t.lookup k).getD default).room).getD {}
      if room.capacity ≤ 0 then acc
      else
        let r := Float.ofNat (e.enrollment k.course) / Float.ofInt room.capacity
        acc + (if r < 1 then r else 1)) 0
    total / Float.ofNat t.size

end Timetable

/-- The quality report of a timetable. -/
structure QualityReport where
  violations : List (String × Nat)
  unscheduled : List (String × Nat)
  gapPenalty : Float
  compactness : Float
  workloadBalance : Float
  roomUtilization : Float
  scheduledRatio : Float
  scheduledCount : Nat
  unscheduledCount : Nat

/-- Count the occurrences of each name, in order of first occurrence. -/
def tally (names : List String) : List (String × Nat) :=
  (dedupStrings names).map fun n => (n, names.count n)

/-- Measure a timetable. -/
def Timetable.measure (t : Timetable) : QualityReport :=
  let total := t.catalog.totalSessions
  let (gaps, days) := t.staffGaps
  { violations := tally (t.violations.map (·.kind.name))
    unscheduled := tally (t.unscheduled.map (·.2))
    gapPenalty := gaps
    compactness := if days > 0 then 1 / (1 + gaps / Float.ofNat days) else 1
    workloadBalance := t.workloadBalance
    roomUtilization := t.roomUtilization
    scheduledRatio := if total > 0 then Float.ofNat t.size / Float.ofInt total else 1
    scheduledCount := t.size
    unscheduledCount := t.missing.length }

end Timetabling
