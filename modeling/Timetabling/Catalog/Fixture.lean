import Timetabling.Catalog.Json
import Timetabling.Yaml.Decode

/-! # Datasets from YAML fixtures

A fixture is a YAML file holding a dataset, for running without a record store. Loading it reads
the file, decodes the five record lists (a list the file leaves out stays null), and narrows the
courses to a department and to batches as `Dataset.filter` does; when no course is left the
course list is null. A request that was already abandoned loads nothing. -/

namespace Timetabling

namespace Dataset

/-- A list of text. -/
def textList : Shape := .list (.text "string") "[]string"

/-- The shape of a dataset document. -/
def shape : Shape :=
  .record "models.Dataset" [
    ("courses", .list (.record "models.Course" [("id", .text "string"), ("code", .text "string"),
      ("department", .text "string"), ("faculty_id", .text "string"), ("student_ids", textList),
      ("batch_ids", textList), ("sessions", .int), ("credits", .float),
      ("required_features", textList), ("subject_type", .text "models.SubjectType")]) "[]models.Course"),
    ("faculty", .list (.record "models.Faculty" [("id", .text "string"), ("department", .text "string"),
      ("max_weekly_sessions", .int), ("available_slots", textList),
      ("preferences", .dict "string" .float "map[string]float64")]) "[]models.Faculty"),
    ("rooms", .list (.record "models.Room" [("id", .text "string"), ("capacity", .int),
      ("features", textList), ("department", .text "string")]) "[]models.Room"),
    ("time_slots", .list (.record "models.TimeSlot" [("id", .text "string"), ("day", .int),
      ("period", .int), ("start", .text "string"), ("end", .text "string")]) "[]models.TimeSlot"),
    ("batches", .list (.record "models.Batch" [("id", .text "string"), ("department", .text "string"),
      ("student_ids", textList)]) "[]models.Batch")]

/-- Narrow the courses of a dataset's JSON form as `filter` does; no course left is null. -/
def filterJson (doc : Json) (department : String) (batchIds : List String) : Json :=
  let wanted := batchIds.filter (· != "")
  let keep (c : Json) : Bool :=
    match Json.asCourse c with
    | .ok course => keeps department wanted course
    | .error _ => false
  match doc with
  | .object members =>
    .object (members.map fun (k, v) =>
      if k == "courses" then
        let kept := match v with
          | .array cs => cs.filter keep
          | _ => []
        (k, if kept.isEmpty then .null else .array kept)
      else (k, v))
  | other => other

end Dataset

/-- A fixture file: its path and, when the file exists, its text. -/
structure Fixture where
  path : String
  contents : Option String

namespace Fixture

/-- Load a fixture's dataset narrowed to a department and batches, in JSON form. -/
def load (f : Fixture) (abandoned : Bool) (department : String) (batchIds : List String) :
    Except String Json :=
  if abandoned then .error "context canceled"
  else match f.contents with
    | none => .error ("read dataset " ++ f.path ++ ": open " ++ f.path ++ ": no such file or directory")
    | some text =>
      match Yaml.decodeDocument Dataset.shape text with
      | .error e => .error ("parse dataset " ++ f.path ++ ": " ++ e.message)
      | .ok doc => .ok (Dataset.filterJson doc department batchIds)

end Fixture

end Timetabling
