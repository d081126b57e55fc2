import Mathlib.Data.Finset.Card
import Mathlib.Data.Finset.Prod
import Mathlib.Data.String.Basic
import Timetabling.Proofs.Clustering.Split

/-! # Clustering partitions the courses

Clustering builds the conflict graph of a catalog's courses, keeps the pairs whose weight is not
below a threshold, and groups the courses the kept pairs join into communities; the courses no kept
pair joins are isolated. Communities larger than the cluster limit are split, isolated courses are
batched, and the clusters are ordered by their first course id and numbered.

Whatever community detection is used, as long as it partitions the nodes of the graph it is given
(`PartitionsNodes`), the clusters partition the courses (`clusters_partition_courses`): every course
id is in exactly one cluster, each cluster lists its ids sorted, and is flagged oversized exactly
when it holds more than the limit; the clusters are ordered by their first id and numbered by
position; and the figures report the clusters, the oversized ones, the isolated courses and every
conflicting pair as the definitions of the graph say (`Clustering`). -/

namespace Timetabling

/-! ## The conflict graph -/

namespace Catalog

/-- The conflict weight of the courses at indices `i` and `j`. -/
def pairWeight (e : Catalog) (i j : Nat) : Float :=
  conflictWeight e (e.courses[i]?.getD default) (e.courses[j]?.getD default)

/-- The courses at indices `i < j` are joined in the conflict graph kept at the threshold `t`: they
conflict, by a weight not below `t`. -/
def Joined (e : Catalog) (t : Float) (i j : Nat) : Prop :=
  i < j ∧ j < e.courses.size ∧ 0 < e.pairWeight i j ∧ ¬ e.pairWeight i j < t

instance (e : Catalog) (t : Float) (i j : Nat) : Decidable (e.Joined t i j) :=
  inferInstanceAs (Decidable (_ ∧ _ ∧ _ ∧ _))

end Catalog

variable {e : Catalog}

/-- The row of a course lists every later course it conflicts with, with the weight. -/
theorem mem_conflictRows {i j : Nat} {w : Float} :
    (j, w) ∈ (conflictRows e)[i]?.getD [] ↔
      i < j ∧ j < e.courses.size ∧ w = e.pairWeight i j ∧ 0 < w := by
  unfold conflictRows
  rw [Array.getElem?_map, Array.getElem?_range]
  split
  · rename_i hi
    simp only [Option.map_some, Option.getD_some, List.mem_filterMap]
    constructor
    · rintro ⟨j', hj', hw⟩
      rw [List.range_eq_range', List.drop_range', List.mem_range'_1] at hj'
      split at hw
      · rename_i hpos
        obtain ⟨rfl, rfl⟩ := Prod.mk.inj (Option.some.inj hw)
        exact ⟨by omega, by omega, rfl, hpos⟩
      · exact (nomatch hw)
    · rintro ⟨hij, hj, rfl, hw⟩
      refine ⟨j, ?_, ?_⟩
      · rw [List.range_eq_range', List.drop_range', List.mem_range'_1]
        omega
      · exact if_pos hw
  · rename_i hi
    exact ⟨fun h ↦ absurd h List.not_mem_nil, fun ⟨hij, hj, _⟩ ↦ absurd (Nat.lt_trans hij hj) hi⟩

/-- A row lists the later courses in increasing order. -/
theorem conflictRows_pairwise (i : Nat) :
    ((conflictRows e)[i]?.getD []).Pairwise fun a b ↦ a.1 < b.1 := by
  unfold conflictRows
  rw [Array.getElem?_map, Array.getElem?_range]
  split
  · simp only [Option.map_some, Option.getD_some]
    refine List.Pairwise.filterMap _ (fun a a' hlt b hb b' hb' ↦ ?_)
      (List.pairwise_lt_range.sublist (List.drop_sublist _ _))
    -- each kept course is listed with its own index
    split at hb
    · split at hb'
      · cases hb
        cases hb'
        exact hlt
      · cases hb'
    · cases hb
  · exact List.Pairwise.nil

/-- The pairs of the conflict graph are the pairs of courses, smaller index first, that conflict,
each with its weight. -/
theorem mem_conflictPairs {i j : Nat} {w : Float} :
    (i, j, w) ∈ conflictPairs (conflictRows e) e.courses.size ↔
      i < j ∧ j < e.courses.size ∧ w = e.pairWeight i j ∧ 0 < w := by
  unfold conflictPairs
  simp only [List.mem_flatMap, List.mem_range, List.mem_map, Prod.mk.injEq]
  constructor
  · rintro ⟨i', -, ⟨j', w'⟩, hrow, rfl, rfl, rfl⟩
    exact mem_conflictRows.mp hrow
  · intro h
    exact ⟨i, by omega, (j, w), mem_conflictRows.mpr h, rfl, rfl, rfl⟩

/-- No pair of courses is listed twice. -/
theorem conflictPairs_nodup :
    ((conflictPairs (conflictRows e) e.courses.size).map fun p ↦ (p.1, p.2.1)).Nodup := by
  unfold conflictPairs
  rw [List.map_flatMap, List.nodup_flatMap]
  refine ⟨fun i _ ↦ ?_, ?_⟩
  · -- within a row the later courses increase
    rw [List.map_map]
    refine (conflictRows_pairwise i).map _ fun a b hab h ↦ ?_
    simp only [Function.comp_apply, Prod.mk.injEq] at h
    omega
  · -- rows of different courses list pairs with different first courses
    refine List.pairwise_lt_range.imp fun {i i'} hlt ↦ ?_
    intro p hp hp'
    simp only [List.map_map, List.mem_map, Function.comp_apply] at hp hp'
    obtain ⟨_, -, rfl⟩ := hp
    obtain ⟨_, -, hpp⟩ := hp'
    simp only [Prod.mk.injEq] at hpp
    omega

/-- A list without repeats has as many elements as a finite set with the same members. -/
theorem length_eq_card_of_mem_iff {α : Type} [DecidableEq α] {l : List α} {s : Finset α}
    (hl : l.Nodup) (hmem : ∀ x, x ∈ l ↔ x ∈ s) : l.length = s.card := by
  rw [← List.toFinset_card_of_nodup hl]
  congr 1
  ext x
  rw [List.mem_toFinset, hmem]

/-- The conflict graph has one pair for every two courses that conflict. -/
theorem length_conflictPairs :
    (conflictPairs (conflictRows e) e.courses.size).length =
      ((Finset.range e.courses.size ×ˢ Finset.range e.courses.size).filter
        fun p ↦ p.1 < p.2 ∧ 0 < e.pairWeight p.1 p.2).card := by
  rw [← List.length_map (f := fun p : Nat × Nat × Float ↦ (p.1, p.2.1))]
  refine length_eq_card_of_mem_iff conflictPairs_nodup fun ⟨i, j⟩ ↦ ?_
  simp only [List.mem_map, Prod.mk.injEq, Finset.mem_filter, Finset.mem_product, Finset.mem_range]
  constructor
  · rintro ⟨⟨i', j', w⟩, hp, rfl, rfl⟩
    obtain ⟨hij, hj, rfl, hw⟩ := mem_conflictPairs.mp hp
    exact ⟨⟨by omega, hj⟩, hij, hw⟩
  · rintro ⟨⟨-, hj⟩, hij, hw⟩
    exact ⟨(i, j, e.pairWeight i j), mem_conflictPairs.mpr ⟨hij, hj, rfl, hw⟩, rfl, rfl⟩

/-! ## Isolated courses -/

/-- Adding the ends of pairs to a set, one pair after another, leaves a node in it exactly when it
was in it or is an end of one of the pairs. -/
theorem contains_foldl_ends {f : Std.HashSet Nat → Nat × Nat × Float → Std.HashSet Nat} {x : Nat}
    (hf : ∀ s p, (f s p).contains x = true ↔ s.contains x = true ∨ x = p.1 ∨ x = p.2.1) :
    ∀ (l : List (Nat × Nat × Float)) (s : Std.HashSet Nat),
      (l.foldl f s).contains x = true ↔ s.contains x = true ∨ ∃ p ∈ l, x = p.1 ∨ x = p.2.1
  | [], s => by simp
  | p :: l, s => by
    rw [List.foldl_cons, contains_foldl_ends hf l, hf]
    simp only [List.mem_cons, exists_eq_or_imp, or_assoc]

/-- The isolated courses are those that no kept pair joins. -/
theorem mem_isolatedCourses {kept : List (Nat × Nat × Float)} {n i : Nat} :
    i ∈ isolatedCourses kept n ↔ i < n ∧ ∀ p ∈ kept, i ≠ p.1 ∧ i ≠ p.2.1 := by
  unfold isolatedCourses
  rw [List.mem_filter, List.mem_range, Bool.not_eq_true', ← Bool.not_eq_true,
    contains_foldl_ends (fun s ⟨a, b, w⟩ ↦ by simp [Std.HashSet.contains_insert]; tauto)]
  simp only [Std.HashSet.contains_empty, Bool.false_eq_true, false_or, not_exists, not_and, not_or]

theorem isolatedCourses_nodup (kept : List (Nat × Nat × Float)) (n : Nat) :
    (isolatedCourses kept n).Nodup :=
  List.nodup_range.filter _

section Kept

variable {P : Nat × Nat × Float → Bool} {t : Float}

/-- The pairs kept at the threshold `t` are those of the courses it joins. -/
theorem mem_keptPairs (hP : ∀ i j w, P (i, j, w) = !(w < t)) {i j : Nat} {w : Float} :
    (i, j, w) ∈ (conflictPairs (conflictRows e) e.courses.size).filter P ↔
      e.Joined t i j ∧ w = e.pairWeight i j := by
  rw [List.mem_filter, mem_conflictPairs, hP, Bool.not_eq_true', decide_eq_false_iff_not]
  constructor
  · rintro ⟨⟨hij, hj, rfl, hw⟩, hkeep⟩
    exact ⟨⟨hij, hj, hw, hkeep⟩, rfl⟩
  · rintro ⟨⟨hij, hj, hw, hkeep⟩, rfl⟩
    exact ⟨⟨hij, hj, rfl, hw⟩, hkeep⟩

/-- Both ends of a kept pair are courses. -/
theorem ends_of_mem_keptPairs {p : Nat × Nat × Float}
    (hp : p ∈ (conflictPairs (conflictRows e) e.courses.size).filter P) :
    p.1 < e.courses.size ∧ p.2.1 < e.courses.size := by
  obtain ⟨i, j, w⟩ := p
  obtain ⟨hij, hj, -⟩ := mem_conflictPairs.mp (List.mem_filter.mp hp).1
  exact ⟨by omega, hj⟩

/-- The isolated courses are counted as the courses no kept pair joins to another. -/
theorem length_isolatedCourses (hP : ∀ i j w, P (i, j, w) = !(w < t)) :
    (isolatedCourses ((conflictPairs (conflictRows e) e.courses.size).filter P)
      e.courses.size).length =
      ((Finset.range e.courses.size).filter fun i ↦
        ∀ j ∈ Finset.range e.courses.size, ¬ e.Joined t i j ∧ ¬ e.Joined t j i).card := by
  refine length_eq_card_of_mem_iff (isolatedCourses_nodup _ _) fun i ↦ ?_
  rw [mem_isolatedCourses, Finset.mem_filter, Finset.mem_range]
  refine and_congr_right fun hi ↦ ⟨fun h j _ ↦ ⟨fun hij ↦ ?_, fun hji ↦ ?_⟩, fun h ⟨a, b, w⟩ hp ↦ ?_⟩
  · exact (h _ ((mem_keptPairs hP).mpr ⟨hij, rfl⟩)).1 rfl
  · exact (h _ ((mem_keptPairs hP).mpr ⟨hji, rfl⟩)).2 rfl
  · -- a kept pair is an edge of the graph, joining two courses
    obtain ⟨hjoined, -⟩ := (mem_keptPairs hP).mp hp
    refine ⟨fun hia ↦ ?_, fun hib ↦ ?_⟩
    · subst hia
      exact (h b (Finset.mem_range.mpr hjoined.2.1)).1 hjoined
    · subst hib
      exact (h a (Finset.mem_range.mpr (Nat.lt_trans hjoined.1 hjoined.2.1))).2 hjoined

/-- The pairs kept and those dropped are all the conflicting pairs. -/
theorem kept_add_dropped :
    ((conflictPairs (conflictRows e) e.courses.size).filter P).length +
        ((conflictPairs (conflictRows e) e.courses.size).length -
          ((conflictPairs (conflictRows e) e.courses.size).filter P).length) =
      ((Finset.range e.courses.size ×ˢ Finset.range e.courses.size).filter
        fun p ↦ p.1 < p.2 ∧ 0 < e.pairWeight p.1 p.2).card := by
  have hle := List.length_filter_le P (conflictPairs (conflictRows e) e.courses.size)
  rw [← length_conflictPairs]
  omega

end Kept

/-! ## Communities -/

/-- Community detection that partitions the nodes of the graph it is given, whatever its
generator: no node is in two communities, or twice in one, and the nodes in communities are the
ends of the pairs. -/
structure PartitionsNodes (detect : List (Nat × Nat × Float) → Pcg → List (List Nat)) : Prop where
  nodup : ∀ pairs rng, ((detect pairs rng).flatten).Nodup
  mem : ∀ pairs rng x, x ∈ (detect pairs rng).flatten ↔ ∃ p ∈ pairs, x = p.1 ∨ x = p.2.1

/-- The communities found hold the courses the kept pairs join, each once, and none is empty. -/
theorem findCommunities_spec {d : Detector} (hdetect : PartitionsNodes d.communities)
    (kept : List (Nat × Nat × Float)) (seed : Nat) :
    ((findCommunities d kept seed).1.flatten).Nodup ∧
    (∀ x, x ∈ (findCommunities d kept seed).1.flatten ↔ ∃ p ∈ kept, x = p.1 ∨ x = p.2.1) ∧
    ∀ g ∈ (findCommunities d kept seed).1, g ≠ [] := by
  unfold findCommunities
  split
  · rename_i hempty
    rw [List.isEmpty_iff] at hempty
    subst hempty
    simp
  · have hnodup := hdetect.nodup kept (Pcg.seeded seed (Pcg.xor seed 0x9e3779b97f4a7c15))
    have hmem := hdetect.mem kept (Pcg.seeded seed (Pcg.xor seed 0x9e3779b97f4a7c15))
    generalize d.communities kept _ = parts at hnodup hmem
    -- sorting each community and dropping the empty ones keeps their members
    have hperm : (((parts.filter fun l ↦ !l.isEmpty).map (·.mergeSort)).flatten).Perm
        parts.flatten := by
      rw [← List.flatMap_def, ← List.flatten_filter_not_isEmpty (L := parts)]
      exact (List.Perm.flatMap_left _ fun l _ ↦ List.mergeSort_perm l _).trans
        (by rw [List.flatMap_def, List.map_id'])
    refine ⟨hperm.nodup_iff.mpr hnodup, fun x ↦ hperm.mem_iff.trans (hmem x), fun g hg ↦ ?_⟩
    simp only [List.mem_map, List.mem_filter, Bool.not_eq_true', List.isEmpty_eq_false_iff] at hg
    obtain ⟨l, ⟨-, hl⟩, rfl⟩ := hg
    rwa [← List.length_pos_iff, List.length_mergeSort, List.length_pos_iff]

/-- The courses the communities hold and the isolated ones are all the courses, each once. -/
theorem communities_isolated_perm {d : Detector} (hdetect : PartitionsNodes d.communities)
    {kept : List (Nat × Nat × Float)} {n : Nat} (hends : ∀ p ∈ kept, p.1 < n ∧ p.2.1 < n) (seed : Nat) :
    ((findCommunities d kept seed).1.flatten ++ isolatedCourses kept n).Perm (List.range n) := by
  obtain ⟨hnodup, hmem, -⟩ := findCommunities_spec hdetect kept seed
  refine (List.perm_ext_iff_of_nodup ?_ List.nodup_range).mpr fun x ↦ ?_
  · -- a course a kept pair joins is not isolated
    refine List.nodup_append.mpr ⟨hnodup, isolatedCourses_nodup kept n, fun a ha b hb hab ↦ ?_⟩
    obtain ⟨p, hp, hend⟩ := (hmem a).mp ha
    have hfree := (mem_isolatedCourses.mp hb).2 p hp
    subst hab
    omega
  · rw [List.mem_append, hmem, mem_isolatedCourses, List.mem_range]
    constructor
    · rintro (⟨p, hp, hend⟩ | ⟨hx, -⟩)
      · have := hends p hp
        omega
      · exact hx
    · intro hx
      by_cases hjoined : ∃ p ∈ kept, x = p.1 ∨ x = p.2.1
      · exact .inl hjoined
      · exact .inr ⟨hx, fun p hp ↦ not_or.mp fun h ↦ hjoined ⟨p, hp, h⟩⟩

/-! ## Clusters -/

/-- Sorting stably by a text key puts the keys in order. -/
theorem pairwise_stableSort_key {α : Type} (key : α → String) {lt : α → α → Bool}
    (hlt : ∀ a b, lt a b = true ↔ key a < key b) (xs : List α) :
    (stableSort lt xs).Pairwise fun a b ↦ key a ≤ key b := by
  have hle : ∀ a b, (!lt b a) = true ↔ key a ≤ key b := fun a b ↦ by
    rw [Bool.not_eq_true', ← Bool.not_eq_true, hlt, not_lt]
  unfold stableSort
  refine (List.pairwise_mergeSort (fun a b c hab hbc ↦ ?_) (fun a b ↦ ?_) xs).imp fun h ↦ ?_
  · exact (hle a c).mpr (((hle a b).mp hab).trans ((hle b c).mp hbc))
  · rw [Bool.or_eq_true, hle, hle]
    exact le_total _ _
  · exact (hle _ _).mp h

namespace Cluster

/-- A cluster holds a course, lists its ids in order, and is flagged oversized exactly when it
holds more than `limit` courses. -/
def WellFormed (limit : Nat) (cl : Cluster) : Prop :=
  cl.courseIds ≠ [] ∧ cl.courseIds.Pairwise (· ≤ ·) ∧
    (cl.oversized = true ↔ limit < cl.courseIds.length)

theorem courseIds_ofMembers_perm (cs : Array Course) (m : List Nat) (o : Bool) :
    (ofMembers cs m o).courseIds.Perm (m.map fun i ↦ (cs[i]?.getD default).id) :=
  List.mergeSort_perm _ _

theorem ofMembers_wellFormed {cs : Array Course} {m : List Nat} {o : Bool} {limit : Nat}
    (hm : m ≠ []) (ho : o = true ↔ limit < m.length) : (ofMembers cs m o).WellFormed limit := by
  have hlen : (ofMembers cs m o).courseIds.length = m.length :=
    ((courseIds_ofMembers_perm cs m o).length_eq).trans (List.length_map _)
  refine ⟨?_, pairwise_stableSort_key (fun s ↦ s) (fun _ _ ↦ decide_eq_true_iff) _,
    by rw [hlen]; exact ho⟩
  rw [← List.length_pos_iff, hlen, List.length_pos_iff]
  exact hm

end Cluster

variable {cs : Array Course} {rows : Array (List (Nat × Float))} {limit : Nat}

/-- The clusters of a community's split list the ids of its courses, each once. -/
theorem courseIds_split_perm (cs : Array Course) (g : List Nat) (rows : Array (List (Nat × Float)))
    (limit : Nat) :
    (((splitGroup g rows limit).map fun c ↦ Cluster.ofMembers cs c.members.toList c.oversized).flatMap
      (·.courseIds)).Perm (g.map fun i ↦ (cs[i]?.getD default).id) := by
  rw [List.flatMap_map]
  refine (List.Perm.flatMap_left _ fun c _ ↦ Cluster.courseIds_ofMembers_perm cs _ _).trans ?_
  rw [← List.map_flatMap]
  exact (splitGroup_members g rows limit).map _

theorem split_wellFormed (hlimit : 0 < limit) {g : List Nat} (hg : g ≠ []) :
    ∀ cl ∈ (splitGroup g rows limit).map fun c ↦ Cluster.ofMembers cs c.members.toList c.oversized,
      cl.WellFormed limit := by
  intro cl hcl
  obtain ⟨c, hc, rfl⟩ := List.mem_map.mp hcl
  obtain ⟨hpos, hflag⟩ := splitGroup_sized hg rows hlimit c hc
  refine Cluster.ofMembers_wellFormed ?_ (by rwa [Array.length_toList])
  rwa [← List.length_pos_iff, Array.length_toList]

/-- The clusters of the communities' splits list the ids of their courses, each once. -/
theorem courseIds_splits_perm (cs : Array Course) (groups : List (List Nat))
    (rows : Array (List (Nat × Float))) (limit : Nat) :
    ((groups.flatMap fun g ↦ (splitGroup g rows limit).map fun c ↦
        Cluster.ofMembers cs c.members.toList c.oversized).flatMap (·.courseIds)).Perm
      (groups.flatten.map fun i ↦ (cs[i]?.getD default).id) := by
  rw [List.flatMap_assoc, List.map_flatten, ← List.flatMap_def]
  exact List.Perm.flatMap_left _ fun g _ ↦ courseIds_split_perm cs g rows limit

/-- The batches of isolated courses list their ids, each once. -/
theorem courseIds_batches_perm (hlimit : 0 < limit) (isolated : List Nat) :
    (((chunksOf limit isolated).map fun b ↦ Cluster.ofMembers cs b false).flatMap
      (·.courseIds)).Perm (isolated.map fun i ↦ (cs[i]?.getD default).id) := by
  rw [List.flatMap_map]
  refine (List.Perm.flatMap_left _ fun b _ ↦ Cluster.courseIds_ofMembers_perm cs _ _).trans
    (List.Perm.of_eq ?_)
  rw [List.flatMap_def, ← List.map_flatten, flatten_chunksOf hlimit]

theorem batch_wellFormed (hlimit : 0 < limit) (isolated : List Nat) :
    ∀ cl ∈ (chunksOf limit isolated).map fun b ↦ Cluster.ofMembers cs b false,
      cl.WellFormed limit := by
  intro cl hcl
  obtain ⟨b, hb, rfl⟩ := List.mem_map.mp hcl
  obtain ⟨hne, hle⟩ := mem_chunksOf hlimit hb
  exact Cluster.ofMembers_wellFormed hne ⟨nofun, fun h ↦ absurd h (by omega)⟩

/-! ## Ordering and numbering -/

/-- Numbering the clusters changes only their ids. -/
theorem map_numberClusters (L : List Cluster) :
    (numberClusters L).map (fun cl ↦ (cl.courseIds, cl.oversized)) =
      (stableSort (fun a b ↦ decide (a.courseIds.headD "" < b.courseIds.headD "")) L).map
        fun cl ↦ (cl.courseIds, cl.oversized) := by
  unfold numberClusters
  conv_rhs => rw [← List.zipIdx_map_fst 0 (stableSort _ L), List.map_map]
  rw [List.map_map]
  exact List.map_congr_left fun ⟨c, i⟩ _ ↦ rfl

theorem flatMap_numberClusters_perm (L : List Cluster) :
    ((numberClusters L).flatMap (·.courseIds)).Perm (L.flatMap (·.courseIds)) := by
  have h := congrArg (List.flatMap Prod.fst) (map_numberClusters L)
  rw [List.flatMap_map, List.flatMap_map] at h
  rw [h]
  exact (List.mergeSort_perm _ _).flatMap_right _

theorem mem_numberClusters {L : List Cluster} {cl : Cluster} (hcl : cl ∈ numberClusters L) :
    ∃ c ∈ L, c.courseIds = cl.courseIds ∧ c.oversized = cl.oversized := by
  have hmem : (cl.courseIds, cl.oversized) ∈ (numberClusters L).map fun cl ↦ (cl.courseIds, cl.oversized) :=
    List.mem_map_of_mem hcl
  rw [map_numberClusters] at hmem
  obtain ⟨c, hc, hpair⟩ := List.mem_map.mp hmem
  exact ⟨c, (List.mergeSort_perm _ _).mem_iff.mp hc, (Prod.mk.inj hpair).1, (Prod.mk.inj hpair).2⟩

/-- The numbered clusters come in the order of their first course ids. -/
theorem numberClusters_ordered (L : List Cluster) :
    ((numberClusters L).map (·.courseIds.headD "")).Pairwise (· ≤ ·) := by
  have h := congrArg (List.map fun p : List String × Bool ↦ p.1.headD "") (map_numberClusters L)
  rw [List.map_map, List.map_map] at h
  rw [show (numberClusters L).map (·.courseIds.headD "") = _ from h, List.pairwise_map]
  exact pairwise_stableSort_key (fun cl ↦ cl.courseIds.headD "") (fun _ _ ↦ decide_eq_true_iff) L

/-- Each numbered cluster's id is its position. -/
theorem id_numberClusters (L : List Cluster) (i : Nat) (h : i < (numberClusters L).length) :
    (numberClusters L)[i].id = i := by
  simp [numberClusters]

/-! ## Clusters that partition the courses -/

/-- Clusters that partition the course ids `ids` under the size limit `limit`: together they list
every id once, so each id is in exactly one cluster; each holds a course and lists its ids in
increasing order; they come in increasing order of their first id and are numbered by position;
and each is flagged oversized exactly when it holds more than `limit` courses. -/
structure ClustersPartition (ids : List String) (limit : Nat) (clusters : List Cluster) : Prop where
  perm : (clusters.flatMap (·.courseIds)).Perm ids
  exactlyOne : ∀ id ∈ ids, clusters.countP (fun cl ↦ id ∈ cl.courseIds) = 1
  nonempty : ∀ cl ∈ clusters, cl.courseIds ≠ []
  sorted : ∀ cl ∈ clusters, cl.courseIds.Pairwise (· < ·)
  ordered : (clusters.map (·.courseIds.headD "")).Pairwise (· < ·)
  numbered : ∀ (i : Nat) (h : i < clusters.length), clusters[i].id = i
  oversized : ∀ cl ∈ clusters, cl.oversized = true ↔ limit < cl.courseIds.length

/-- An element of the parts of a list without repeats is in exactly one part. -/
theorem countP_mem_eq_one {α β : Type} [DecidableEq β] {f : α → List β} {x : β} :
    ∀ {L : List α}, (L.flatMap f).Nodup → x ∈ L.flatMap f → L.countP (fun a ↦ x ∈ f a) = 1
  | [], _, hx => absurd hx List.not_mem_nil
  | a :: L, hnodup, hx => by
    rw [List.flatMap_cons, List.nodup_append] at hnodup
    rw [List.flatMap_cons, List.mem_append] at hx
    rw [List.countP_cons]
    by_cases ha : x ∈ f a
    · -- the part holding it is the first; no later part does
      have hrest : x ∉ L.flatMap f := fun hL ↦ hnodup.2.2 x ha x hL rfl
      rw [List.countP_eq_zero.mpr fun b hb hxb ↦ hrest (List.mem_flatMap.mpr ⟨b, hb, by simpa using hxb⟩)]
      simp [ha]
    · rw [countP_mem_eq_one hnodup.2.1 (hx.resolve_left ha)]
      simp [ha]

theorem headD_mem {l : List String} (hl : l ≠ []) : l.headD "" ∈ l := by
  cases l with
  | nil => exact absurd rfl hl
  | cons a l => exact List.mem_cons_self

/-- Ordering and numbering well-formed clusters that together list every course id once makes
clusters that partition the ids: the order of first ids is strict, as no id is in two of them. -/
theorem numberClusters_partition {L : List Cluster} {ids : List String} (hids : ids.Nodup)
    (hperm : (L.flatMap (·.courseIds)).Perm ids) (hL : ∀ cl ∈ L, cl.WellFormed limit) :
    ClustersPartition ids limit (numberClusters L) := by
  have hperm' := (flatMap_numberClusters_perm L).trans hperm
  have hwf : ∀ cl ∈ numberClusters L, cl.WellFormed limit := fun cl hcl ↦ by
    obtain ⟨c, hc, hids, hflag⟩ := mem_numberClusters hcl
    have h := hL c hc
    rwa [Cluster.WellFormed, hids, hflag] at h
  have hnodup := hperm'.nodup_iff.mpr hids
  obtain ⟨hinner, hdisjoint⟩ := List.nodup_flatMap.mp hnodup
  refine ⟨hperm', fun id hid ↦ countP_mem_eq_one hnodup (hperm'.mem_iff.mpr hid),
    fun cl hcl ↦ (hwf cl hcl).1, fun cl hcl ↦ ?_, ?_, id_numberClusters L,
    fun cl hcl ↦ (hwf cl hcl).2.2⟩
  · -- ids in order and never repeated are in strict order
    exact ((hwf cl hcl).2.1.and (hinner cl hcl)).imp fun h ↦ lt_of_le_of_ne h.1 h.2
  · -- two clusters share no id, so neither their first ids
    have hordered := numberClusters_ordered L
    rw [List.pairwise_map] at hordered ⊢
    refine (hordered.and hdisjoint).imp_of_mem fun {a b} ha hb h ↦ lt_of_le_of_ne h.1 fun heq ↦ ?_
    exact h.2 (headD_mem (hwf a ha).1) (heq ▸ headD_mem (hwf b hb).1)

/-! ## Clustering a catalog -/

/-- What clustering the courses of `e` under the options `opts` reports: clusters that partition
the course ids under the size limit, which is 24 unless a positive one is given; and figures that
count the clusters, the oversized ones, the isolated courses (those no kept edge joins to another),
and the conflicting pairs, kept or dropped. -/
structure Clustering (e : Catalog) (opts : ClusterOptions) (clusters : List Cluster)
    (stats : ClusterStats) : Prop where
  partition : ClustersPartition (e.courses.toList.map (·.id))
    (if opts.maxClusterSize ≤ 0 then 24 else opts.maxClusterSize.toNat) clusters
  clusterCount : stats.clusters = clusters.length
  oversizedCount : stats.oversized = clusters.countP (·.oversized)
  isolatedCount : stats.isolated = ((Finset.range e.courses.size).filter fun i ↦
    ∀ j ∈ Finset.range e.courses.size,
      ¬ e.Joined opts.edgeThreshold i j ∧ ¬ e.Joined opts.edgeThreshold j i).card
  pairCount : stats.edges + stats.droppedEdges =
    ((Finset.range e.courses.size ×ˢ Finset.range e.courses.size).filter
      fun p ↦ p.1 < p.2 ∧ 0 < e.pairWeight p.1 p.2).card

/-- The ids of the courses, by index, are the ids of the catalog's courses. -/
theorem map_range_id (cs : Array Course) :
    (List.range cs.size).map (fun i ↦ (cs[i]?.getD default).id) = cs.toList.map (·.id) := by
  refine List.ext_getElem (by simp) fun i h₁ h₂ ↦ ?_
  rw [List.getElem_map, List.getElem_map, List.getElem_range,
    Array.getElem?_eq_getElem (by simpa using h₂)]
  rfl

/-- A catalog without courses has no cluster, and nothing to count. -/
theorem clustering_of_size_zero (hzero : e.courses.size = 0) (opts : ClusterOptions) :
    Clustering e opts [] {} := by
  have hnil : e.courses.toList = [] := by
    rw [← Array.length_toList, List.length_eq_zero_iff] at hzero
    exact hzero
  refine ⟨⟨by simp [hnil], by simp [hnil], nofun, nofun, List.Pairwise.nil,
    fun _ h ↦ absurd h (Nat.not_lt_zero _), nofun⟩, rfl, rfl, ?_, ?_⟩ <;> simp [hzero]

/-- Whatever community detection is used, as long as it partitions the nodes of the graph it is
given, clustering the courses of a catalog whose course ids are distinct puts every course id in
exactly one cluster; each cluster lists its ids sorted and is flagged oversized exactly when it
holds more than the limit; the clusters come in order of their first id and are numbered by
position; and the figures count the clusters, the oversized ones, the isolated courses and the
conflicting pairs. -/
theorem clusters_partition_courses {d : Detector} (hdetect : PartitionsNodes d.communities)
    {e : Catalog} (hids : (e.courses.toList.map (·.id)).Nodup) (opts : ClusterOptions) :
    Clustering e opts (clusterCoursesBy d e opts).1 (clusterCoursesBy d e opts).2 := by
  have hpos : 0 < (if opts.maxClusterSize ≤ 0 then 24 else opts.maxClusterSize.toNat) := by
    split <;> omega
  unfold clusterCoursesBy
  dsimp only
  by_cases hzero : e.courses.size = 0
  · rw [if_pos hzero]
    exact clustering_of_size_zero hzero opts
  · rw [if_neg hzero]
    -- the communities found among the kept pairs and the isolated courses cover the courses
    have hends : ∀ p ∈ (conflictPairs (conflictRows e) e.courses.size).filter
        (fun x ↦ !decide (x.2.2 < opts.edgeThreshold)), p.1 < e.courses.size ∧ p.2.1 < e.courses.size :=
      fun p hp ↦ ends_of_mem_keptPairs hp
    have hcover := communities_isolated_perm hdetect hends opts.seed
    obtain ⟨-, -, hgroups⟩ := findCommunities_spec hdetect
      ((conflictPairs (conflictRows e) e.courses.size).filter
        fun x ↦ !decide (x.2.2 < opts.edgeThreshold)) opts.seed
    refine ⟨numberClusters_partition hids ?_ ?_, rfl, List.countP_eq_length_filter.symm,
      length_isolatedCourses fun _ _ _ ↦ rfl, kept_add_dropped⟩
    · rw [List.flatMap_append, ← map_range_id]
      refine ((courseIds_splits_perm _ _ _ _).append (courseIds_batches_perm hpos _)).trans ?_
      rw [← List.map_append]
      exact hcover.map _
    · -- every cluster comes from the split of a community or is a batch of isolated courses
      intro cl hcl
      rcases List.mem_append.mp hcl with hcl | hcl
      · obtain ⟨g, hg, hcl⟩ := List.mem_flatMap.mp hcl
        exact split_wellFormed hpos (hgroups g hg) cl hcl
      · exact batch_wellFormed hpos _ cl hcl

/-- The simplest graph library whose communities partition the nodes: all of them in one
community, a partition of modularity zero. -/
def oneCommunity : Detector :=
  ⟨fun pairs _ ↦ [(pairs.flatMap fun p ↦ [p.1, p.2.1]).dedup], fun _ _ ↦ 0⟩

theorem oneCommunity_partitions : PartitionsNodes oneCommunity.communities where
  nodup pairs _ := by simpa [oneCommunity] using List.nodup_dedup _
  mem pairs _ x := by
    simp only [oneCommunity, List.flatten_cons, List.flatten_nil, List.append_nil, List.mem_dedup,
      List.mem_flatMap, List.mem_cons, List.not_mem_nil, or_false]

/-- A catalog of two courses taught by one member of staff, listed out of order. -/
def sharedStaffCatalog : Catalog :=
  { courses := #[{ id := "b", facultyId := "f", sessions := 1 }, { id := "a", facultyId := "f", sessions := 1 }]
    rooms := #[], slots := #[], facultyList := [], batchList := [], facultyById := {},
    courseIndex := {}, roomIndex := {}, slotIndex := {}, studentsById := {}, studentSets := {},
    featureSets := {}, roomFeatures := {}, available := {}, lastPeriod := {} }

theorem clusters_partition_courses_sharedStaff :
    PartitionsNodes oneCommunity.communities ∧ (sharedStaffCatalog.courses.toList.map (·.id)).Nodup ∧
      Clustering sharedStaffCatalog {} (clusterCoursesBy oneCommunity sharedStaffCatalog {}).1
        (clusterCoursesBy oneCommunity sharedStaffCatalog {}).2 := by
  have hids : (sharedStaffCatalog.courses.toList.map (·.id)).Nodup := by
    simp [sharedStaffCatalog]
  exact ⟨oneCommunity_partitions, hids, clusters_partition_courses oneCommunity_partitions hids {}⟩

end Timetabling
