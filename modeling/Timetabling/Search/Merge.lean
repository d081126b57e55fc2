import Timetabling.Search.Exact
import Timetabling.Clustering.Basic

/-! # Solving clusters and merging them

Each cluster is solved on a timetable of its own: exactly when exact solving is asked for and
the cluster is not oversized, and greedily otherwise or when the exact search gives up, in which
case the reason is kept. The partial timetables are then merged in cluster order into one: each
placement is assigned again, and the sessions that now collide with an earlier cluster are
placed greedily afterwards. Every session still missing ends up marked, with its dominant
conflict when no cluster gave a reason. -/

namespace Timetabling

/-- Why a cluster was solved greedily. -/
inductive Fallback where
  | greedyMode
  | oversized
  | infeasible
  | budget
  | timeout
deriving DecidableEq, Repr

/-- The name of a fallback reason. -/
def Fallback.name : Fallback → String
  | .greedyMode => "greedy_mode"
  | .oversized => "oversized"
  | .infeasible => "infeasible"
  | .budget => "node_budget"
  | .timeout => "timeout"

/-- The fallback reason of a search fault. -/
def SearchFault.fallback : SearchFault → Fallback
  | .infeasible => .infeasible
  | .budget => .budget
  | .timeout => .timeout

/-- The outcome of solving one cluster: its timetable (absent when a cluster produced none), the
reason it was solved greedily, if it was, and the search nodes spent. -/
structure ClusterSolution where
  clusterId : Int
  timetable : Option Timetable
  fallback : Option Fallback := none
  nodes : Nat := 0

/-- The name of the method that solved a cluster. -/
def ClusterSolution.method (r : ClusterSolution) : String :=
  if r.fallback.isSome then "greedy" else "exact"

/-- The fallback reason's name, empty for an exact solution. -/
def ClusterSolution.fallbackName (r : ClusterSolution) : String :=
  (r.fallback.map (·.name)).getD ""

/-- The sessions of a cluster's known courses, course by course. -/
def Cluster.keys (c : Cluster) (e : Catalog) : List SessionKey :=
  c.courseIds.flatMap fun id =>
    match e.course? id with
    | some course => (List.range course.sessions.toNat).map fun (i : Nat) => ⟨id, i⟩
    | none => []

/-- Solve one cluster on an empty timetable, the exact search with the timeout and node budget
given and the clock `pastDeadline`. -/
def Cluster.solve (c : Cluster) (e : Catalog) (d : Domain) (exact : Bool) (timeout : Int)
    (pastDeadline : Nat → Bool) (budget : Int) : ClusterSolution :=
  let greedy (fallback : Fallback) (nodes : Nat) : ClusterSolution :=
    { clusterId := c.id, timetable := some ((Timetable.empty e).greedy d (c.keys e)).1,
      fallback := some fallback, nodes }
  if !exact then greedy .greedyMode 0
  else if c.oversized then greedy .oversized 0
  else
    match (Timetable.empty e).solveExact d c.courseIds timeout pastDeadline budget with
    | (nodes, .ok (), t) => { clusterId := c.id, timetable := some t, nodes }
    | (nodes, .error f, _) => greedy f.fallback nodes

/-- What merging partial timetables did: placements committed as they were, collisions with
earlier clusters, collisions placed again, and sessions left marked. -/
structure MergeStats where
  committed : Nat := 0
  collisions : Nat := 0
  replaced : Nat := 0
  unscheduled : Nat := 0
deriving DecidableEq, Repr

/-- The parts in the order they are merged: by cluster id, parts of one id in their given order. -/
def mergeOrder (parts : List ClusterSolution) : List ClusterSolution :=
  stableSort (fun a b => decide (a.clusterId < b.clusterId)) parts

/-- Offer one placement to the merged timetable, with the placements committed so far and the
sessions refused so far: it is committed when the timetable accepts it, and its session is
counted as a collision otherwise. -/
def commitOffer (acc : Timetable × Nat × List SessionKey) (key : SessionKey) (p : Placement) :
    Timetable × Nat × List SessionKey :=
  let (t, committed, collided) := acc
  match t.assign key p with
  | .ok t => (t, committed + 1, collided)
  | .error _ => (t, committed, collided ++ [key])

/-- Offer the placement a partial timetable gives a session, if it gives one. -/
def commitKey (pt : Timetable) (acc : Timetable × Nat × List SessionKey) (key : SessionKey) :
    Timetable × Nat × List SessionKey :=
  match pt.lookup key with
  | none => acc
  | some p => commitOffer acc key p

/-- Merge one partial timetable: offer each of its placements in key order, then copy its
reasons. -/
def commitPart (acc : Timetable × Nat × List SessionKey) (pt : Timetable) :
    Timetable × Nat × List SessionKey :=
  let (t, committed, collided) := pt.keys.foldl (commitKey pt) acc
  (pt.unscheduled.foldl (fun t (k, r) => t.markUnscheduled k r) t, committed, collided)

/-- Merge one cluster's solution, if it has a timetable. -/
def commitSolution (acc : Timetable × Nat × List SessionKey) (part : ClusterSolution) :
    Timetable × Nat × List SessionKey :=
  match part.timetable with
  | none => acc
  | some pt => commitPart acc pt

/-- Merge the partial timetables in cluster order onto the empty timetable of a catalog. -/
def commitParts (e : Catalog) (parts : List ClusterSolution) : Timetable × Nat × List SessionKey :=
  (mergeOrder parts).foldl commitSolution (Timetable.empty e, 0, [])

/-- Merge partial timetables, in cluster order, into one timetable of a catalog. -/
def merge (e : Catalog) (d : Domain) (parts : List ClusterSolution) : Timetable × MergeStats :=
  let (t, committed, collided) := commitParts e parts
  let (t, replaced) := if collided.isEmpty then (t, 0) else t.greedy d collided
  let t := t.missing.foldl (fun t k =>
    if (t.reason? k).isSome then t else t.markUnscheduled k (t.dominantBlocker d k).name) t
  (t, { committed, collisions := collided.length, replaced, unscheduled := t.unscheduled.length })

end Timetabling
