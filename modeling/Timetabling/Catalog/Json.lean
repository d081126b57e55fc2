import Timetabling.Catalog.Records
import Timetabling.Json.Decode

/-! # Reading catalog records from JSON

Each record is an object whose members are named in snake case (`faculty_id`,
`max_weekly_sessions`, `time_slots`); missing members take their zero values. -/

namespace Timetabling

namespace Json

/-- A course record. -/
def asCourse (j : Json) : Except DecodeError Course := do
  let j ← asRecord j
  pure {
    id := ← j.get "id" asString
    code := ← j.get "code" asString
    department := ← j.get "department" asString
    facultyId := ← j.get "faculty_id" asString
    studentIds := ← j.get "student_ids" (asList asString)
    batchIds := ← j.get "batch_ids" (asList asString)
    sessions := ← j.get "sessions" asInt
    credits := ← j.get "credits" asFloat
    requiredFeatures := ← j.get "required_features" (asList asString)
    subjectType := ← j.get "subject_type" asString }

/-- A staff record. -/
def asFaculty (j : Json) : Except DecodeError Faculty := do
  let j ← asRecord j
  pure {
    id := ← j.get "id" asString
    department := ← j.get "department" asString
    maxWeeklySessions := ← j.get "max_weekly_sessions" asInt
    availableSlots := ← j.get "available_slots" (asList asString)
    preferences := ← j.get "preferences" (asMap asFloat) }

/-- A room record. -/
def asRoom (j : Json) : Except DecodeError Room := do
  let j ← asRecord j
  pure {
    id := ← j.get "id" asString
    capacity := ← j.get "capacity" asInt
    features := ← j.get "features" (asList asString)
    department := ← j.get "department" asString }

/-- A time slot record. -/
def asTimeSlot (j : Json) : Except DecodeError TimeSlot := do
  let j ← asRecord j
  pure {
    id := ← j.get "id" asString
    day := ← j.get "day" asInt
    period := ← j.get "period" asInt
    start := ← j.get "start" asString
    finish := ← j.get "end" asString }

/-- A batch record. -/
def asBatch (j : Json) : Except DecodeError Batch := do
  let j ← asRecord j
  pure {
    id := ← j.get "id" asString
    department := ← j.get "department" asString
    studentIds := ← j.get "student_ids" (asList asString) }

/-- A dataset: the five record lists. -/
def asDataset (j : Json) : Except DecodeError Dataset := do
  let j ← asRecord j
  pure {
    courses := ← j.get "courses" (asList asCourse)
    faculty := ← j.get "faculty" (asList asFaculty)
    rooms := ← j.get "rooms" (asList asRoom)
    timeSlots := ← j.get "time_slots" (asList asTimeSlot)
    batches := ← j.get "batches" (asList asBatch) }

end Json

end Timetabling
