import Timetabling.Validation
import Timetabling.Search.Greedy

/-! # Changing a finished timetable

A course can join a finished timetable, or leave it, without moving any other placement. A new
course is added to the catalog, the existing placements are assigned again over the larger
catalog, and the new sessions are placed greedily; the result must then validate. A removed
course takes its sessions with it. -/

namespace Timetabling

/-- Why a timetable could not be changed. -/
inductive ChangeError where
  | cancelled
  | failed (message : String)
deriving DecidableEq, Repr

/-- The text of a change error. -/
def ChangeError.message : ChangeError → String
  | .cancelled => "context canceled"
  | .failed m => m

namespace Timetable

/-- Add a course and place its sessions greedily around the existing placements; a request
already stopped fails before anything. -/
def addCourse (t : Timetable) (course : Course) (stopped : Bool) : Except ChangeError Timetable := do
  let fail (m : String) : Except ChangeError Timetable := .error (.failed ("add course: " ++ m))
  if stopped then .error .cancelled
  else if (t.catalog.course? course.id).isSome then fail (course.id ++ " already scheduled")
  else match t.catalog.withCourse course with
    | .error e => fail e.message
    | .ok extended =>
      match t.rebind extended with
      | .error c => fail c.message
      | .ok out =>
        let keys := (List.range course.sessions.toNat).map fun (i : Nat) => (⟨course.id, i⟩ : SessionKey)
        let (out, _) := out.greedy (Domain.build extended) keys
        match out.validate with
        | .error m => fail m
        | .ok () => pure out

/-- Remove a course and its sessions. -/
def removeCourse (t : Timetable) (courseId : String) : Except ChangeError Timetable := do
  let fail (m : String) : Except ChangeError Timetable := .error (.failed ("remove course: " ++ m))
  if (t.catalog.course? courseId).isNone then fail (courseId ++ " not found")
  else match t.catalog.withoutCourse courseId with
    | .error e => fail e.message
    | .ok reduced =>
      match t.rebind reduced with
      | .error c => fail c.message
      | .ok out => pure out

end Timetable

end Timetabling
