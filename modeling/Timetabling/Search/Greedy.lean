import Timetabling.Domain

/-! # Greedy placement

The greedy scheduler places sessions one at a time, hardest course first: a course is harder when
it has fewer candidate placements, then when more students attend it, then when it needs more
room features. Each session takes the first candidate that the timetable accepts, trying first
the days its course does not use yet and, among those, the days holding fewest sessions. A
session that fits nowhere is marked with the kind of conflict that refused most of its
candidates, ties going to the kind whose name sorts first. -/

namespace Timetabling

/-- How constrained a course is. -/
structure Difficulty where
  options : Nat
  enrollment : Nat
  features : Nat
deriving DecidableEq, Repr

namespace Difficulty

/-- Whether a course of this difficulty goes before one of the other: fewer options, then more
students, then more required features. -/
def harder (d o : Difficulty) : Bool :=
  if d.options != o.options then d.options < o.options
  else if d.enrollment != o.enrollment then d.enrollment > o.enrollment
  else d.features > o.features

end Difficulty

/-- The difficulty of the course of an id; an unknown id is read as a course with no fields. -/
def Catalog.difficulty (e : Catalog) (d : Domain) (courseId : String) : Difficulty :=
  let c := (e.course? courseId).getD {}
  ⟨d.options c.id, e.enrollment c.id, c.requiredFeatures.length⟩

/-- Whether one session goes before another: a session of a harder course first, courses of equal
difficulty by id, the sessions of one course by number. -/
def Catalog.goesBefore (e : Catalog) (d : Domain) (a b : SessionKey) : Bool :=
  if a.course != b.course then
    let da := e.difficulty d a.course
    let db := e.difficulty d b.course
    if da.harder db then true
    else if db.harder da then false
    else decide (a.course < b.course)
  else decide (a.index < b.index)

/-- Sessions of harder courses first, courses of equal difficulty by id, the sessions of one
course by number. -/
def Catalog.orderByDifficulty (e : Catalog) (d : Domain) (keys : List SessionKey) :
    List SessionKey :=
  stableSort (e.goesBefore d) keys

namespace ConflictKind

/-- One kind visited in a tally, against the best kind so far and its count: a kind counted more
often, or as often with a name that sorts first, takes over; a kind the tally does not hold
changes nothing. -/
def prefer (tally : List ConflictKind) (best : ConflictKind × Nat) (k : ConflictKind) :
    ConflictKind × Nat :=
  let n := tally.count k
  if n > 0 && (n > best.2 || (n == best.2 && decide (k.name < best.1.name))) then (k, n)
  else best

/-- The kind refusing most often in a tally, ties going to the kind whose name sorts first;
`none` for an empty tally. -/
def dominant (tally : List ConflictKind) : ConflictKind :=
  (all.foldl (prefer tally) (.none, 0)).1

end ConflictKind

/-- The reason recorded for a session whose course has no candidates. -/
def noCandidates : String := "no_candidates"

namespace Timetable

/-- The days on which a course's sessions are placed. -/
def daysOf (t : Timetable) (courseId : String) : List Int :=
  match t.catalog.course? courseId with
  | none => []
  | some c =>
    (List.range c.sessions.toNat).filterMap fun (i : Nat) =>
      (t.lookup ⟨courseId, i⟩).bind fun p => (t.catalog.slot? p.slot).map (·.day)

/-- The day of a slot (day `0` for an unknown slot). -/
def dayOf (t : Timetable) (slotId : String) : Int :=
  ((t.catalog.slot? slotId).map (·.day)).getD 0

/-- The number of placed sessions on each day. -/
def dayLoads (t : Timetable) : Std.HashMap Int Nat :=
  t.keys.foldl (fun m k =>
    match (t.lookup k).bind fun p => t.catalog.slot? p.slot with
    | some s => m.insert s.day (m[s.day]?.getD 0 + 1)
    | none => m) {}

/-- Place a session at the first of the placements that the timetable accepts, or give the kinds
of the refusals met, latest first. -/
def firstFit (t : Timetable) (key : SessionKey) :
    List Placement → List ConflictKind → Except (List ConflictKind) (Timetable × Placement)
  | [], refused => .error refused
  | p :: ps, refused =>
    match t.assign key p with
    | .ok t => .ok (t, p)
    | .error c => firstFit t key ps (c.kind :: refused)

/-- A session's candidates in the order the greedy scheduler tries them: days its course does
not use before days it does, then the less loaded days. -/
def greedyOrder (t : Timetable) (loads : Std.HashMap Int Nat) (key : SessionKey)
    (candidates : List Placement) : List Placement :=
  let used := t.daysOf key.course
  stableSort (fun a b =>
    let da := t.dayOf a.slot
    let db := t.dayOf b.slot
    let ua := used.contains da
    let ub := used.contains db
    if ua != ub then !ua else decide (loads[da]?.getD 0 < loads[db]?.getD 0)) candidates

/-- Place one session greedily, carrying the timetable, the day loads and the number placed so
far: a session already placed is skipped, one without candidates is marked, and any other takes
the first candidate accepted, or is marked with its dominant conflict. -/
def greedyStep (d : Domain) (acc : Timetable × Std.HashMap Int Nat × Nat) (key : SessionKey) :
    Timetable × Std.HashMap Int Nat × Nat :=
  let (t, loads, placed) := acc
  if t.isPlaced key then acc
  else
    match d.forKey key with
    | [] => (t.markUnscheduled key noCandidates, loads, placed)
    | candidates =>
      match t.firstFit key (t.greedyOrder loads key candidates) [] with
      | .ok (t, p) =>
        let day := t.dayOf p.slot
        (t, loads.insert day (loads[day]?.getD 0 + 1), placed + 1)
      | .error refused => (t.markUnscheduled key (ConflictKind.dominant refused).name, loads, placed)

/-- Place the given sessions greedily, hardest first, skipping those already placed; a session
that fits nowhere is marked with its dominant conflict. Also gives the number placed. -/
def greedy (t : Timetable) (d : Domain) (keys : List SessionKey) : Timetable × Nat :=
  let (t, _, placed) := (t.catalog.orderByDifficulty d keys).foldl (greedyStep d) (t, t.dayLoads, 0)
  (t, placed)

/-- The kind of conflict refusing most of a session's candidates now (`availability` when it has
none). -/
def dominantBlocker (t : Timetable) (d : Domain) (key : SessionKey) : ConflictKind :=
  match d.forKey key with
  | [] => .availability
  | candidates => ConflictKind.dominant (candidates.map fun p => ((t.check key p).map (·.kind)).getD .none)

end Timetable

end Timetabling
