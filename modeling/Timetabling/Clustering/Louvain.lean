import Std.Data.HashMap
import Timetabling.Clustering.Basic

/-! # Community detection by modularity

The Louvain method on a weighted undirected graph. Each node starts in a community of its own.
In a pass the nodes are visited in a random order, and each moves to the neighbouring community
that raises the modularity most, if that gain exceeds `1e-15`; passes repeat until one moves
nothing. If anything moved, each community becomes one node of a smaller graph (its internal
weight on the node, the weights between communities on the edges) and the method starts again on
it; otherwise the communities are final.

A node's gain from leaving community `A` for `B` is `2 (ΔB − ΔA) / m`, where for a community `C`
with `k_C` the weight from the node into `C` and `Σ_C` the degree sum of `C`,
`ΔC = k_C − k · Σ_C / m` (less the node's own weight and degree for its own community), `k` is the
node's degree and `m` the total degree of the graph. Candidate communities are visited in index order and
the first best one wins.

Community indices are kept exactly as the method manipulates them: a node joins the end of its
new community, leaves its old one by being replaced with that community's last member, and empty
communities are removed by moving the last community into their place. Those indices number the
nodes of the next graph, and so decide the next random visiting orders. -/

namespace Timetabling

namespace Louvain

/-- A weighted undirected graph on nodes `0 … n-1`: a weight on each node (its internal edges),
the distinct neighbours of each node, and the weight of each joined pair, keyed smaller first. -/
structure Graph where
  selfWeight : Array Float
  neighbours : Array (Array Nat)
  pairWeight : Std.HashMap (Nat × Nat) Float

namespace Graph

/-- The number of nodes. -/
def size (g : Graph) : Nat := g.selfWeight.size

/-- The weight between two nodes: the node's own weight for a node with itself, zero for a pair
that is not joined. -/
def weight (g : Graph) (x y : Nat) : Float :=
  if x == y then g.selfWeight[x]?.getD 0
  else g.pairWeight[(min x y, max x y)]?.getD 0

/-- The degree of a node: its own weight plus the weights to its neighbours. -/
def degree (g : Graph) (u : Nat) : Float :=
  (g.neighbours[u]?.getD #[]).foldl (fun w v => w + g.weight u v) (g.weight u u)

/-- A graph with no node weights from a list of weighted pairs `(u, v, w)` with `u ≠ v` on
nodes `0 … n-1`. -/
def ofPairs (n : Nat) (pairs : List (Nat × Nat × Float)) : Graph :=
  pairs.foldl (fun g (u, v, w) =>
    { g with
      neighbours := (g.neighbours.modify u (·.push v)).modify v (·.push u)
      pairWeight := g.pairWeight.insert (min u v, max u v) w })
    ⟨Array.replicate n 0, Array.replicate n #[], {}⟩

end Graph

/-- The state of the local moving phase on one graph. -/
structure Mover where
  order : Array Nat
  communities : Array (Array Nat)
  membership : Array Nat
  degrees : Array Float
  total : Float
  moved : Bool := false
  changed : Bool := false

/-- The mover of a graph with every node in its own community, or `none` if the graph has no
weight. -/
def Mover.start (g : Graph) : Option Mover :=
  let degrees := (Array.range g.size).map g.degree
  let total := degrees.foldl (· + ·) 0
  if total == 0 then none
  else some { order := Array.range g.size, communities := (Array.range g.size).map (#[·]),
              membership := Array.range g.size, degrees, total }

/-- Shuffle the visiting order: position `i` swaps with a uniform position from `i` on. -/
def shuffle (order : Array Nat) (rng : Pcg) : Array Nat × Pcg :=
  (List.range (order.size - 1)).foldl (fun (o, rng) i =>
    let (r, rng) := rng.below (o.size - i)
    (o.swapIfInBounds i (i + r), rng)) (order, rng)

/-- A gain no larger than this is no gain. -/
def tolerance : Float := 1e-15

/-- The best move of a node: its modularity gain, the destination community, and the node's
community and position in it. -/
def gain (g : Graph) (mv : Mover) (n : Nat) : Float × Option Nat × Nat × Nat :=
  let selfW := g.weight n n
  let k := mv.degrees[n]?.getD 0
  let m := mv.total
  let own := mv.membership[n]?.getD 0
  let linked := (g.neighbours[n]?.getD #[]).toList.map fun v => mv.membership[v]?.getD 0
  let candidates := ((own :: linked).foldl (fun acc c => if acc.contains c then acc else c :: acc) []).mergeSort
  let init : Float × Float × Option Nat × Nat × Nat := (0, -1.0 / 0.0, none, own, 0)
  let (remove, add, dst, srcC, srcPos) := candidates.foldl (fun (remove, add, dst, srcC, srcPos) i =>
    let c := mv.communities[i]?.getD #[]
    let kC := c.foldl (fun s u => s + g.weight n u) 0
    let sigma := c.foldl (fun s u => s + mv.degrees[u]?.getD 0) 0
    match c.idxOf? n with
    | some j => (kC - selfW - 1.0 * k * (sigma - k) / m, add, dst, i, j)
    | none =>
      let a := kC - 1.0 * k * sigma / m
      if a > add then (remove, a, some i, srcC, srcPos) else (remove, add, dst, srcC, srcPos)) init
  (2 * (add - remove) / m, dst, srcC, srcPos)

/-- Move the node at position `pos` of community `src` to the end of community `dst`; its old
place takes the last member of `src`. -/
def Mover.move (mv : Mover) (n dst src pos : Nat) : Mover :=
  let cs := mv.communities.modify dst (·.push n)
  let s := cs[src]?.getD #[]
  let s := (s.setIfInBounds pos (s.back?.getD n)).pop
  { mv with communities := cs.setIfInBounds src s, membership := mv.membership.setIfInBounds n dst, moved := true,
            changed := true }

/-- One pass over the nodes in a fresh random order. -/
def Mover.pass (g : Graph) (mv : Mover) (rng : Pcg) : Mover × Pcg :=
  let (order, rng) := shuffle mv.order rng
  let mv := { mv with order, moved := false }
  (order.foldl (fun mv n =>
    match gain g mv n with
    | (dq, some dst, src, pos) => if dq ≤ tolerance then mv else mv.move n dst src pos
    | (_, none, _, _) => mv) mv, rng)

/-- Passes until one moves nothing; `fuel` bounds their number. Also says whether any pass
moved a node. -/
def Mover.settle (g : Graph) : Nat → Mover → Pcg → Mover × Pcg
  | 0, mv, rng => (mv, rng)
  | fuel + 1, mv, rng =>
    let (mv, rng) := mv.pass g rng
    if mv.moved then Mover.settle g fuel mv rng else (mv, rng)

/-- Remove empty communities: each is replaced by the last community, which is then checked in
its turn. -/
def compact (cs : Array (Array Nat)) : Array (Array Nat) :=
  go cs.size 0 cs
where
  go : Nat → Nat → Array (Array Nat) → Array (Array Nat)
    | 0, _, cs => cs
    | fuel + 1, i, cs =>
      if h : i < cs.size then
        if cs[i].isEmpty then go fuel i ((cs.set i (cs.back?.getD #[])).pop)
        else go fuel (i + 1) cs
      else cs

/-- The graph whose nodes are the given communities: a community's weight is its members' own
weights plus twice the weight of each pair of members; two communities are joined by the sum of
the weights between their members. -/
def reduce (g : Graph) (cs : Array (Array Nat)) : Graph :=
  let commOf : Std.HashMap Nat Nat := cs.zipIdx.foldl (fun m (c, i) => c.foldl (fun m u => m.insert u i) m) {}
  let selfWeight := cs.map fun c =>
    (List.range c.size).foldl (fun w j =>
      let u := c.toList.getD j 0
      let w := w + g.weight u u
      ((c.toList.drop (j + 1)).foldl (fun w v => w + 2 * g.weight u v) w)) 0
  let (neighbours, pairWeight) := cs.zipIdx.foldl (fun (nbs, pw) (c, i) =>
    let (out, pw) := c.foldl (fun (out, pw) u =>
      (g.neighbours[u]?.getD #[]).foldl (fun (out : Array Nat × Std.HashMap (Nat × Nat) Float) v =>
        let (out, pw) := out
        let vc := commOf[v]?.getD 0
        let out := if vc != i && !out.contains vc then out.push vc else out
        let pw := if i < vc then pw.insert (i, vc) ((pw[(i, vc)]?.getD 0) + g.weight u v) else pw
        (out, pw)) (out, pw)) (#[], pw)
    (nbs.push out, pw)) (#[], {})
  ⟨selfWeight, neighbours, pairWeight⟩

/-- Run the method from a graph whose nodes stand for the given groups of original nodes. The
result is the final groups. `fuel` bounds the number of levels; each level that moves anything
has fewer nodes than the one before. -/
def run : Nat → Graph → Array (List Nat) → Pcg → Array (List Nat)
  | 0, _, groups, _ => groups
  | fuel + 1, g, groups, rng =>
    match Mover.start g with
    | none => groups
    | some mv =>
      let (mv, rng) := mv.settle g 100000 rng
      if !mv.changed then groups
      else
        let cs := compact mv.communities
        run fuel (reduce g cs) (cs.map fun c => c.toList.flatMap fun u => groups[u]?.getD []) rng

/-- The communities of a graph given by weighted pairs of original node ids, found with a
generator: each community as a list of original ids. -/
def communities (pairs : List (Nat × Nat × Float)) (rng : Pcg) : List (List Nat) :=
  let ids := (pairs.flatMap fun (u, v, _) => [u, v]).foldl (fun acc x => if acc.contains x then acc else acc ++ [x]) []
  let ids := ids.mergeSort
  let index : Std.HashMap Nat Nat := ids.zipIdx.foldl (fun m (x, i) => m.insert x i) {}
  let g := Graph.ofPairs ids.length (pairs.map fun (u, v, w) => (index[u]?.getD 0, index[v]?.getD 0, w))
  (run (ids.length + 1) g (ids.toArray.map ([·])) rng).toList

/-- The modularity of a partition of a graph given by weighted pairs of original node ids. -/
def modularity (pairs : List (Nat × Nat × Float)) (parts : List (List Nat)) : Float :=
  let degree : Std.HashMap Nat Float := pairs.foldl (fun m (u, v, w) =>
    (m.insert u ((m[u]?.getD 0) + w)).insert v ((m[v]?.getD 0) + w)) {}
  let weight : Std.HashMap (Nat × Nat) Float := pairs.foldl (fun m (u, v, w) => m.insert (min u v, max u v) w) {}
  let total := degree.fold (fun s _ d => s + d) 0
  let q := parts.foldl (fun q c =>
    (List.range c.length).foldl (fun q i =>
      let u := c.getD i 0
      let ku := degree[u]?.getD 0
      let q := q + (0 - 1.0 * ku * ku / total)
      (c.drop (i + 1)).foldl (fun q v =>
        let w := weight[(min u v, max u v)]?.getD 0
        q + 2 * (w - 1.0 * ku * (degree[v]?.getD 0) / total)) q) q) 0
  q / total

/-- The Louvain method as the graph library of clustering. -/
def detector : Detector := ⟨communities, modularity⟩

end Louvain

end Timetabling
