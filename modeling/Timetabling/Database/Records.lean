import Timetabling.Database.Script
import Timetabling.Json.Syntax
import Timetabling.Catalog.Basic

/-! # Loading records from the database

The records of a request are read in a fixed order: the courses of the scope (organization,
semester, academic year, and optionally a department and batches), the students and batches of
those courses, the staff who teach them, the batches the courses name with their students, and
the organization's rooms and time slots. Reads that have nothing to ask for are skipped.

The result is the dataset in its JSON form, where a list that was never read is `null` and a
list read empty is `[]`. The first failing read ends the load, its error prefixed with what was
being loaded. -/

namespace Timetabling

/-- The part of the records a request reads. -/
structure RecordScope where
  organization : String := ""
  department : String := ""
  /-- The batches asked for; `none` when the request names none at all. -/
  batchIds : Option (List String) := none
  semester : Int := 0
  academicYear : String := ""
deriving Repr, Inhabited

namespace RecordStore

/-- A read against the scripted database that may fail. -/
abbrev Reading := ExceptT String (StateM ScriptedDatabase)

/-- The record of a course row. -/
def courseRow : RecordType := ⟨"courseRow", [("id", .text), ("code", .text), ("department_id", .text),
  ("faculty_id", .text), ("sessions_per_week", .int "int" 64), ("credits", .real), ("subject_type", .text),
  ("required_features", .textArray)]⟩

/-- The record of a staff row. -/
def facultyRow : RecordType := ⟨"facultyRow", [("id", .text), ("department_id", .text),
  ("max_weekly_sessions", .int "int" 64), ("available_slots", .textArray), ("preferences", .jsonText)]⟩

/-- The record of a room row. -/
def roomRow : RecordType := ⟨"roomRow", [("id", .text), ("capacity", .int "int" 64), ("features", .textArray),
  ("department_id", .text)]⟩

/-- The record of a time slot row. -/
def slotRow : RecordType := ⟨"slotRow", [("id", .text), ("day", .int "int" 64), ("period", .int "int" 64),
  ("start_time", .text), ("end_time", .text)]⟩

/-- The record of a membership row. -/
def memberRow : RecordType := ⟨"memberRow", [("owner_id", .text), ("member_id", .text)]⟩

/-- The record of a batch row. -/
def batchRow : RecordType := ⟨"batchRow", [("id", .text), ("department_id", .text)]⟩

/-- Run a query and read its rows. -/
def select (st : Statement) (args : List Arg) (t : RecordType) : Reading (List Record) := do
  let reply ← ExceptT.mk (modifyGet fun db => db.send st args)
  match t.readAll st reply with
  | .ok rs => pure rs
  | .error e => throw e

/-- Prefix the error of a read. -/
def context {α : Type} (label : String) (r : Reading α) : Reading α :=
  ExceptT.adapt (fun e => label ++ e) r

/-- The members of each owner, owners in the order first met; nothing is asked for no owners. -/
def members (st : Statement) (owners : List String) : Reading (List (String × List String)) := do
  if owners.isEmpty then return []
  let rows ← select st [Arg.textArray (some owners)] memberRow
  pure (rows.foldl (fun acc r =>
    let o := r.text "owner_id"
    let m := r.text "member_id"
    if acc.any (·.1 == o) then acc.map fun (k, ms) => if k == o then (k, ms ++ [m]) else (k, ms)
    else acc ++ [(o, [m])]) [])

/-- A list of text as JSON, `null` when absent. -/
def textsJson : Option (List String) → Json
  | none => .null
  | some xs => .strings xs

/-- The members of an owner as JSON: `null` when it has none. -/
def membersJson (m : List (String × List String)) (owner : String) : Json :=
  textsJson ((m.find? (·.1 == owner)).map (·.2))

/-- Load the staff teaching the courses; `null` when there are none to ask for. -/
def loadFaculty (ids : List String) : Reading Json := do
  if ids.isEmpty then return .null
  let rows ← context "load faculty: " (select .faculty [Arg.textArray (some ids)] facultyRow)
  let items ← rows.mapM fun r => do
    let text := r.json "preferences"
    let prefs ← if text.isEmpty then pure Json.null
      else match JsonSyntax.floatMap text with
        | .ok none => pure Json.null
        | .ok (some m) =>
          pure (Json.object ((stableSort (fun a b => decide (a.1 < b.1)) m).map fun (k, x) => (k, Json.float x)))
        | .error e => throw ("decode preferences of faculty " ++ r.text "id" ++ ": " ++ e)
    pure (Json.object [("id", .string (r.text "id")), ("department", .string (r.text "department_id")),
      ("max_weekly_sessions", .int (r.int "max_weekly_sessions")),
      ("available_slots", textsJson (r.texts "available_slots")), ("preferences", prefs)])
  pure (.array items)

/-- Load the batches the courses name, with their students; `null` when there are none. -/
def loadBatches (ids : List String) : Reading Json := do
  if ids.isEmpty then return .null
  let rows ← context "load batches: " (select .batches [Arg.textArray (some ids)] batchRow)
  let students ← context "load batch students: " (members .batchStudents ids)
  pure (.array (rows.map fun r => .object [("id", .string (r.text "id")),
    ("department", .string (r.text "department_id")), ("student_ids", membersJson students (r.text "id"))]))

/-- Load the records of a scope as a dataset in JSON form. -/
def load (scope : RecordScope) : Reading Json := do
  let courses ← context "load courses: " (select .courses [.text scope.organization, .int scope.semester,
    .text scope.academicYear, .text scope.department, Arg.textArray scope.batchIds] courseRow)
  let courseIds := courses.map (·.text "id")
  let facultyIds := dedupStrings (courses.map (·.text "faculty_id"))
  let students ← context "load course students: " (members .courseStudents courseIds)
  let batchLinks ← context "load course batches: " (members .courseBatches courseIds)
  let faculty ← loadFaculty facultyIds
  let batches ← loadBatches (dedupStrings (batchLinks.flatMap (·.2)))
  let rooms ← context "load rooms: " (select .rooms [.text scope.organization] roomRow)
  let slots ← context "load time slots: " (select .timeSlots [.text scope.organization] slotRow)
  pure (.object [
    ("courses", .array (courses.map fun r => .object [("id", .string (r.text "id")),
      ("code", .string (r.text "code")), ("department", .string (r.text "department_id")),
      ("faculty_id", .string (r.text "faculty_id")), ("student_ids", membersJson students (r.text "id")),
      ("batch_ids", membersJson batchLinks (r.text "id")), ("sessions", .int (r.int "sessions_per_week")),
      ("credits", .float (r.real "credits")), ("required_features", textsJson (r.texts "required_features")),
      ("subject_type", .string (r.text "subject_type"))])),
    ("faculty", faculty),
    ("rooms", .array (rooms.map fun r => .object [("id", .string (r.text "id")),
      ("capacity", .int (r.int "capacity")), ("features", textsJson (r.texts "features")),
      ("department", .string (r.text "department_id"))])),
    ("time_slots", .array (slots.map fun r => .object [("id", .string (r.text "id")),
      ("day", .int (r.int "day")), ("period", .int (r.int "period")), ("start", .string (r.text "start_time")),
      ("end", .string (r.text "end_time"))])),
    ("batches", batches)])

end RecordStore

/-- The scope of a load, `{organization_id, department_id, batch_ids, semester, academic_year}`;
missing batch ids are no list at all. -/
def Json.asRecordScope (j : Json) : Except DecodeError RecordScope := do
  let j ← Json.asRecord j
  pure { organization := ← j.get "organization_id" Json.asString, department := ← j.get "department_id" Json.asString,
         batchIds := ← j.getOpt "batch_ids" (Json.asList Json.asString), semester := ← j.get "semester" Json.asInt,
         academicYear := ← j.get "academic_year" Json.asString }

end Timetabling
