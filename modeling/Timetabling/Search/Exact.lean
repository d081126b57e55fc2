import Timetabling.Search.Greedy

/-! # Exact placement of a cluster

A depth-first search places every session of a group of courses, or proves it cannot. Each step
takes the course whose next session has the fewest viable placements (the first such course on a
tie) and tries them in candidate order. Sessions of a course are placed in number order, each in
a slot later in the week than the one before, so interchangeable sessions are never permuted. A
viable placement is a candidate the timetable accepts now; after each placement every course
with sessions left must still have a viable placement and at least as many viable slots as
sessions left, or the placement is undone at once.

Before searching, the group is refused when some course has no candidates or fewer candidate
slots than sessions, or when a member of staff is asked for more sessions than their candidate
slots or their weekly cap. Every step counts as a node, and a positive budget bounds the nodes.
A search with a positive timeout reads the clock at every sixty-fourth node and gives up once its
deadline has passed; when that happens is the caller's to say. -/

namespace Timetabling

/-- Why an exact search gave up. -/
inductive SearchFault where
  | infeasible
  | budget
  | timeout
deriving DecidableEq, Repr

/-- The state of an exact search: the timetable so far, the next session of each course, and the
nodes visited. -/
structure Search where
  timetable : Timetable
  domain : Domain
  courses : List Course
  next : Std.HashMap String Nat := {}
  budget : Int
  nodes : Nat := 0
  /-- Whether the clock is past the search's deadline when it reaches a node, by the node's
  number; never for a search without a deadline. -/
  deadline : Nat → Bool := fun _ => false

namespace Search

/-- The number of the next session to place of a course. -/
def nextOf (s : Search) (courseId : String) : Nat :=
  s.next[courseId]?.getD 0

/-- The placements the next session of a course can take now, in candidate order. -/
def viable (s : Search) (c : Course) : List Placement :=
  let e := s.timetable.catalog
  let session := s.nextOf c.id
  let key : SessionKey := ⟨c.id, session⟩
  let after : Int :=
    if session > 0 then
      e.slotOrder (((s.timetable.lookup ⟨c.id, (session - 1 : Nat)⟩).map (·.slot)).getD "")
    else -1
  (s.domain.forKey key).filter fun p => decide (e.slotOrder p.slot > after) && (s.timetable.check key p).isNone

/-- Whether a course still has sessions to place. -/
def pending (s : Search) (c : Course) : Bool :=
  decide ((s.nextOf c.id : Int) < c.sessions)

/-- The pending course with the fewest viable placements, the first on a tie, with them; `none`
when nothing is pending. -/
def pick (s : Search) : Option (Course × List Placement) :=
  go s.courses none
where
  go : List Course → Option (Course × List Placement) → Option (Course × List Placement)
    | [], best => best
    | c :: cs, best =>
      if !s.pending c then go cs best
      else
        let options := s.viable c
        match best with
        | some (_, bestOptions) =>
          if options.length < bestOptions.length then
            if options.isEmpty then some (c, options) else go cs (some (c, options))
          else go cs best
        | none => if options.isEmpty then some (c, options) else go cs (some (c, options))

/-- Whether every pending course still has a viable placement and enough viable slots for its
remaining sessions. -/
def forwardCheck (s : Search) : Bool :=
  s.courses.all fun c =>
    let remaining := c.sessions - (s.nextOf c.id : Int)
    if remaining ≤ 0 then true
    else
      let options := s.viable c
      !options.isEmpty && decide ((Domain.slotsOf options).length ≥ remaining)

/-- Advance or step back the next session of a course. -/
def bump (s : Search) (courseId : String) (forward : Bool) : Search :=
  let n := s.nextOf courseId
  { s with next := s.next.insert courseId (if forward then n + 1 else n - 1) }

/-- Search from the current state; `depth` bounds the sessions still to place plus one. On
success the state holds a complete placement; on failure the state's timetable is as it was. -/
def solve : Nat → Search → Except SearchFault Unit × Search
  | 0, s => (.error .infeasible, s)
  | depth + 1, s =>
    let s := { s with nodes := s.nodes + 1 }
    if s.budget > 0 ∧ (s.nodes : Int) > s.budget then (.error .budget, s)
    else if s.nodes % 64 = 0 ∧ s.deadline s.nodes then (.error .timeout, s)
    else
      match s.pick with
      | none => (.ok (), s)
      | some (_, []) => (.error .infeasible, s)
      | some (c, options) =>
        let key : SessionKey := ⟨c.id, s.nextOf c.id⟩
        let (outcome, s) := options.foldl (fun (acc : Option (Except SearchFault Unit) × Search) p =>
          match acc with
          | (some r, s) => (some r, s)
          | (none, s) =>
            match s.timetable.assign key p with
            | .error _ => (none, s)
            | .ok t =>
              let s := { s with timetable := t }.bump c.id true
              let (r, s) := if s.forwardCheck then solve depth s else (.error .infeasible, s)
              match r with
              | .ok () => (some (.ok ()), s)
              | .error .infeasible =>
                let s := s.bump c.id false
                (none, { s with timetable := (s.timetable.unassign key).2 })
              | .error f => (some (.error f), s)) (none, s)
        ((outcome.getD (.error .infeasible)), s)

end Search

/-- Whether a group of courses is refused before any search: a course with no candidates or fewer
candidate slots than sessions, or staff asked for more sessions than their candidate slots or
their positive weekly cap. -/
def Catalog.refusedUpfront (e : Catalog) (d : Domain) (courses : List Course) : Bool :=
  let staff := dedupStrings (courses.map (·.facultyId))
  courses.any (fun c => d.options c.id == 0 || decide ((d.distinctSlots c.id : Int) < c.sessions)) ||
    staff.any fun f =>
      let mine := courses.filter (·.facultyId == f)
      let demand := mine.foldl (fun (n : Int) c => n + c.sessions) 0
      let slots := dedupStrings (mine.flatMap fun c => Domain.slotsOf (d.forCourse c.id))
      decide (demand > slots.length) ||
        match e.faculty? f with
        | some fac => decide (fac.maxWeeklySessions > 0 ∧ demand > fac.maxWeeklySessions)
        | none => false

/-- Place every session of the courses of the given ids exactly, starting from a timetable. The
result is the number of nodes visited, whether the search succeeded or why it gave up, and the
timetable as the search leaves it: complete on success. Unknown ids and courses without sessions
are left out. A positive timeout sets a deadline, and `pastDeadline` says when the clock has
passed it, by the number of the node reached. -/
def Timetable.solveExact (t : Timetable) (d : Domain) (courseIds : List String) (timeout : Int)
    (pastDeadline : Nat → Bool) (budget : Int) : Nat × Except SearchFault Unit × Timetable :=
  let courses := courseIds.filterMap fun id =>
    (t.catalog.course? id).filter fun c => c.sessions != 0
  if t.catalog.refusedUpfront d courses then (0, .error .infeasible, t)
  else
    let depth := (courses.foldl (fun n c => n + c.sessions.toNat) 0) + 1
    let s : Search := { timetable := t, domain := d, courses, budget,
                        next := courses.foldl (fun m c => m.insert c.id 0) {},
                        deadline := fun n => decide (timeout > 0) && pastDeadline n }
    match Search.solve depth s with
    | (r, s) => (s.nodes, r, s.timetable)

end Timetabling
