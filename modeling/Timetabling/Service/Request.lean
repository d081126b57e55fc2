import Timetabling.Catalog.Json
import Timetabling.Json.Parse
import Timetabling.Text.Clock
import Timetabling.Grid

/-! # Generation requests

A generation request names the organization, semester and academic year it schedules, and may
narrow the records to a department and batches, pick a quality mode and a seed, replace the time
slots with a generated grid, and carry its records inline.

A request body is read as the first JSON value of the text; anything after it is ignored. A
member of the wrong type makes the body unreadable. A readable request is then checked: the
organization and academic year (at most 16 characters) are required, the semester lies in 1 to
12, batch ids are not empty, the quality mode is `fast`, `balanced` or `best` when given, an inline
dataset has courses, staff and rooms, and a grid has one to seven working days numbered 1 to 7,
1 to 16 slots a day of 15 to 240 minutes, a start time, and a lunch end whenever it has a lunch
start, every time written `H:MM`. -/

namespace Timetabling

/-- A grid of time slots asked for by a request. -/
structure GridRequest where
  workingDays : List Int := []
  slotsPerDay : Int := 0
  slotMinutes : Int := 0
  startTime : String := ""
  lunchStart : String := ""
  lunchEnd : String := ""
deriving Repr, Inhabited

/-- A generation request. -/
structure SubmitRequest where
  organization : String := ""
  department : String := ""
  batchIds : Option (List String) := none
  semester : Int := 0
  academicYear : String := ""
  quality : String := ""
  seed : Option Nat := none
  grid : Option GridRequest := none
  /-- The inline records, with their JSON text as sent. -/
  dataset : Option (Dataset × Json) := none
deriving Inhabited

/-- A request to add a course to a finished timetable, with the batches it names as sent
(`none` when it names none). -/
structure CourseRequest where
  course : Course := {}
  batchIds : Option (List String) := none
deriving Inhabited

namespace Json

/-- The first JSON value of a text, ignoring what follows it. -/
def first? (text : String) : Option Json :=
  let cs := skipBlanks text.toList
  (readValue (2 * cs.length + 4) cs).map (·.1)

/-- The batch ids a course names as sent: `none` when the member is missing or `null`. -/
def batchIdsOf (course : Json) : Option (List String) :=
  match course.field? "batch_ids" with
  | some (.array xs) => some (xs.filterMap fun x => match x with
      | .string s => some s
      | _ => none)
  | _ => none

/-- A grid request. -/
def asGridRequest (j : Json) : Except DecodeError GridRequest := do
  let j ← asRecord j
  pure { workingDays := ← j.get "working_days" (asList asInt), slotsPerDay := ← j.get "slots_per_day" asInt,
         slotMinutes := ← j.get "slot_duration_minutes" asInt, startTime := ← j.get "start_time" asString,
         lunchStart := ← j.get "lunch_start" asString, lunchEnd := ← j.get "lunch_end" asString }

/-- A generation request. -/
def asSubmitRequest (j : Json) : Except DecodeError SubmitRequest := do
  let j ← asRecord j
  let dataset ← match j.field? "dataset" with
    | none | some .null => pure none
    | some d => pure (some (← asDataset d, d))
  pure { organization := ← j.get "organization_id" asString, department := ← j.get "department_id" asString,
         batchIds := ← j.getOpt "batch_ids" (asList asString), semester := ← j.get "semester" asInt,
         academicYear := ← j.get "academic_year" asString, quality := ← j.get "quality_mode" asString,
         seed := ← j.getOpt "seed" asUInt64, grid := ← j.getOpt "time_grid" asGridRequest, dataset }

/-- A request to add a course. -/
def asCourseRequest (j : Json) : Except DecodeError CourseRequest := do
  let j ← asRecord j
  let raw := (j.field? "course").getD .null
  pure ⟨← j.get "course" asCourse, batchIdsOf raw⟩

end Json

namespace GridRequest

/-- Whether a clock time reads. -/
def clockOk (s : String) : Bool :=
  (Clock.parse s).toOption.isSome

/-- Whether a grid request passes its checks. -/
def valid (g : GridRequest) : Bool :=
  !g.workingDays.isEmpty && g.workingDays.length ≤ 7 && g.workingDays.all (fun d => 1 ≤ d && d ≤ 7) &&
  1 ≤ g.slotsPerDay && g.slotsPerDay ≤ 16 && 15 ≤ g.slotMinutes && g.slotMinutes ≤ 240 &&
  clockOk g.startTime && (g.lunchStart.isEmpty || clockOk g.lunchStart) &&
  (g.lunchStart.isEmpty || !g.lunchEnd.isEmpty) && (g.lunchEnd.isEmpty || clockOk g.lunchEnd)

/-- The grid the request asks for. -/
def config (g : GridRequest) : GridConfig :=
  { workingDays := g.workingDays, slotsPerDay := g.slotsPerDay, slotMinutes := g.slotMinutes,
    dayStart := g.startTime, lunchStart := g.lunchStart, lunchEnd := g.lunchEnd }

end GridRequest

/-- Whether a generation request passes its checks. -/
def SubmitRequest.valid (r : SubmitRequest) : Bool :=
  r.organization != "" && 1 ≤ r.semester && r.semester ≤ 12 && r.academicYear != "" &&
  r.academicYear.length ≤ 16 && (r.batchIds.getD []).all (· != "") &&
  (r.quality.isEmpty || ["fast", "balanced", "best"].contains r.quality) &&
  (r.grid.map GridRequest.valid).getD true &&
  (r.dataset.map fun (d, _) => !d.courses.isEmpty && !d.faculty.isEmpty && !d.rooms.isEmpty).getD true

end Timetabling
