import Timetabling.Domain
import Timetabling.Random.Pcg

/-! # Clusters of conflicting courses

Two courses conflict more the more they share: three for the same member of staff, one per
shared student up to five, and one and a half for a common required feature. The courses are
split into clusters that the exact search can handle one at a time.

Pairs of courses at or above a threshold weight form a graph whose communities (by modularity)
are the first groups: finding them, and scoring a partition, is left to a graph library
(`Detector`); courses with no such pair are isolated and batched separately. A group
larger than the cluster limit is split greedily: courses in order of falling total weight join
the open chunk they are most drawn to, or open a new one, and a full chunk still takes a course
tied to it by a staff-sized weight when that tie is stronger than any open chunk's pull, which
makes the chunk oversized. Clusters list their course ids sorted and are ordered by their first
course id. -/

namespace Timetabling

/-- A group of courses solved together. -/
structure Cluster where
  id : Int := 0
  courseIds : List String := []
  oversized : Bool := false
deriving Repr, Inhabited

/-- The sessions of a cluster's known courses. -/
def Cluster.sessions (c : Cluster) (e : Catalog) : Int :=
  c.courseIds.foldl (fun acc id => acc + ((e.course? id).map (·.sessions)).getD 0) 0

/-- How strongly two courses conflict. -/
def conflictWeight (e : Catalog) (a b : Course) : Float :=
  let w : Float := if a.facultyId != "" && a.facultyId == b.facultyId then 3.0 else 0
  let shared := e.sharedStudents a.id b.id
  let w := if shared > 0 then w + min (Float.ofNat shared * 1.0) 5.0 else w
  if b.requiredFeatures.any a.requiredFeatures.contains then w + 1.5 else w

/-- What clustering asks of a graph library, over the graph of weighted pairs of course indices:
its communities, found with a random source, and the modularity of a partition of it. -/
structure Detector where
  communities : List (Nat × Nat × Float) → Pcg → List (List Nat)
  modularity : List (Nat × Nat × Float) → List (List Nat) → Float

/-- Options of clustering. -/
structure ClusterOptions where
  edgeThreshold : Float := 0
  maxClusterSize : Int := 0
  seed : Nat := 0

/-- Figures about a clustering. -/
structure ClusterStats where
  courses : Nat := 0
  edges : Nat := 0
  droppedEdges : Nat := 0
  communities : Nat := 0
  clusters : Nat := 0
  oversized : Nat := 0
  isolated : Nat := 0
  modularity : Float := 0
deriving Repr

/-- The positive conflict weights of each course to the courses after it, by index. -/
def conflictRows (e : Catalog) : Array (List (Nat × Float)) :=
  let cs := e.courses
  (Array.range cs.size).map fun i =>
    ((List.range cs.size).drop (i + 1)).filterMap fun j =>
      let w := conflictWeight e (cs[i]?.getD default) (cs[j]?.getD default)
      if w > 0 then some (j, w) else none

/-- A chunk being filled by splitting. -/
structure Chunk where
  members : Array Nat
  oversized : Bool := false

/-- The chunks a course could join, given its weight to each course: the open chunk it is most
drawn to, and among the full chunks it is tied to by a staff-sized weight the one it is most drawn
to, each with its pull. The first chunk of the greatest pull wins. -/
def pickChunk (weight : Nat → Float) (limit : Nat) (chunks : Array Chunk) :
    Option Nat × Float × Option Nat × Float :=
  chunks.zipIdx.foldl (fun (best, bestA, hard, hardA) (c, idx) =>
    let (aff, strongest) := c.members.foldl (fun (aff, st) m =>
      let w := weight m
      (aff + w, max st w)) ((0 : Float), (0 : Float))
    let (best, bestA) := if c.members.size < limit ∧ aff > bestA then (some idx, aff) else (best, bestA)
    let (hard, hardA) := if c.members.size ≥ limit ∧ strongest ≥ 3.0 ∧ aff > hardA then (some idx, aff)
      else (hard, hardA)
    (best, bestA, hard, hardA)) ((none : Option Nat), (0 : Float), (none : Option Nat), (0 : Float))

/-- Place the course `n`: in the full chunk it is tied to if that pull beats every open chunk's,
which makes the chunk oversized; otherwise in the open chunk it is most drawn to; otherwise in a
chunk of its own. -/
def placeCourse (weight : Nat → Nat → Float) (limit : Nat) (chunks : Array Chunk) (n : Nat) :
    Array Chunk :=
  let pick := pickChunk (weight n) limit chunks
  match pick with
  | (_, bestA, some h, hardA) =>
    if hardA > bestA then chunks.modify h fun c => ⟨c.members.push n, true⟩
    else match pick.1 with
      | some b => chunks.modify b fun c => { c with members := c.members.push n }
      | none => chunks.push ⟨#[n], false⟩
  | (some b, _, none, _) => chunks.modify b fun c => { c with members := c.members.push n }
  | (none, _, none, _) => chunks.push ⟨#[n], false⟩

/-- Split an overlarge group into chunks of at most `limit` courses, but for courses a chunk
takes beyond its limit by a staff-sized tie. -/
def splitGroup (members : List Nat) (rows : Array (List (Nat × Float))) (limit : Nat) : List Chunk :=
  if members.length ≤ limit then [⟨members.toArray, false⟩]
  else
    let weight (a b : Nat) : Float :=
      if members.contains a && members.contains b then
        let fwd := ((rows[a]?.getD []).find? (·.1 == b)).map (·.2)
        let bwd := ((rows[b]?.getD []).find? (·.1 == a)).map (·.2)
        (fwd <|> bwd).getD 0
      else 0
    let degree (n : Nat) : Float := members.foldl (fun s m => s + weight n m) 0
    let order := stableSort (fun a b =>
      let da := degree a
      let db := degree b
      if da == db then a < b else da > db) members
    (order.foldl (placeCourse weight limit) #[]).toList

/-- Cut a list into consecutive pieces of `size` elements (the last may be shorter). -/
def chunksOf {α : Type} (size : Nat) (xs : List α) : List (List α) :=
  go xs.length xs
where
  go : Nat → List α → List (List α)
    | 0, _ => []
    | fuel + 1, xs => if xs.isEmpty then [] else xs.take size :: go fuel (xs.drop size)

/-- Every conflicting pair of the `n` courses, by index, smaller first, with its weight. -/
def conflictPairs (rows : Array (List (Nat × Float))) (n : Nat) : List (Nat × Nat × Float) :=
  (List.range n).flatMap fun i => (rows[i]?.getD []).map fun (j, w) => (i, j, w)

/-- The courses, by index below `n`, that no kept pair joins. -/
def isolatedCourses (kept : List (Nat × Nat × Float)) (n : Nat) : List Nat :=
  let linked := kept.foldl (fun s (i, j, _) => (s.insert i).insert j) (∅ : Std.HashSet Nat)
  (List.range n).filter fun i => !linked.contains i

/-- The communities a graph library finds among the kept pairs, each sorted and none empty, with
the number it found and the modularity of their partition; none without a kept pair. -/
def findCommunities (d : Detector) (kept : List (Nat × Nat × Float)) (seed : Nat) :
    List (List Nat) × Nat × Float :=
  if kept.isEmpty then ([], 0, 0)
  else
    let parts := d.communities kept (Pcg.seeded seed (Pcg.xor seed 0x9e3779b97f4a7c15))
    (parts.filter (!·.isEmpty) |>.map (·.mergeSort), parts.length, d.modularity kept parts)

/-- The cluster of the courses at some indices, listing their ids sorted. -/
def Cluster.ofMembers (cs : Array Course) (members : List Nat) (oversized : Bool) : Cluster :=
  { courseIds := sortStrings (members.map fun i => (cs[i]?.getD default).id), oversized }

/-- Clusters ordered by their first course id, and numbered in that order. -/
def numberClusters (clusters : List Cluster) : List Cluster :=
  (stableSort (fun a b => decide (a.courseIds.headD "" < b.courseIds.headD "")) clusters).zipIdx.map
    fun (c, i) => { c with id := (i : Int) }

/-- Cluster the courses of a catalog, with the graph library `d` finding the communities of the
graph of the pairs kept. -/
def clusterCoursesBy (d : Detector) (e : Catalog) (opts : ClusterOptions) :
    List Cluster × ClusterStats :=
  let limit : Nat := if opts.maxClusterSize ≤ 0 then 24 else opts.maxClusterSize.toNat
  let cs := e.courses
  if cs.size = 0 then ([], {})
  else
    let rows := conflictRows e
    let all := conflictPairs rows cs.size
    let kept := all.filter fun (_, _, w) => !(w < opts.edgeThreshold)
    let isolated := isolatedCourses kept cs.size
    let (groups, communities, q) := findCommunities d kept opts.seed
    let clusters := numberClusters
      ((groups.flatMap fun g => (splitGroup g rows limit).map fun c =>
          Cluster.ofMembers cs c.members.toList c.oversized) ++
        ((chunksOf limit isolated).map fun b => Cluster.ofMembers cs b false))
    let stats : ClusterStats :=
      { courses := cs.size, edges := kept.length, droppedEdges := all.length - kept.length
        communities := communities, clusters := clusters.length
        oversized := (clusters.filter (·.oversized)).length, isolated := isolated.length
        modularity := q }
    (clusters, stats)

end Timetabling
