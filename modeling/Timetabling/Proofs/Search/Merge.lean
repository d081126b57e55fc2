import Timetabling.Proofs.Search.Greedy
import Timetabling.Proofs.Validation.Reports
import Timetabling.Search.Merge

/-! # Merging is an edit

The merge of partial timetables only places and marks sessions, as does the greedy placement of
its collisions, so it edits its timetable (`Timetable.Edited`). A merge starts from the empty timetable of its catalog
and ends by marking every session still missing, so its result is reachable whenever the catalog
is indexed, and accounts for every session. -/

namespace Timetabling

namespace Merge

open Timetable

variable {t₀ : Timetable}

theorem commitOffer_edited {acc : Timetable × Nat × List SessionKey} (h : t₀.Edited acc.1)
    (key : SessionKey) (p : Placement) : t₀.Edited (commitOffer acc key p).1 := by
  obtain ⟨t, committed, collided⟩ := acc
  unfold commitOffer
  dsimp only
  split
  · rename_i ha
    exact h.assign ha
  · exact h

/-- A part's placements are offered one by one, then its reasons are copied. -/
theorem commitPart_edited {acc : Timetable × Nat × List SessionKey} (h : t₀.Edited acc.1)
    (pt : Timetable) : t₀.Edited (commitPart acc pt).1 := by
  unfold commitPart
  dsimp only
  refine List.foldlRecOn (motive := fun t ↦ t₀.Edited t) _ _ ?_ fun t ht x _ ↦ ht.markUnscheduled _ _
  refine List.foldlRecOn (motive := fun (acc : Timetable × Nat × List SessionKey) ↦ t₀.Edited acc.1)
    _ _ h fun acc hacc key _ ↦ ?_
  unfold commitKey
  split
  · exact hacc
  · exact commitOffer_edited hacc _ _

theorem commitParts_edited (e : Catalog) (parts : List ClusterSolution) :
    (Timetable.empty e).Edited (commitParts e parts).1 := by
  unfold commitParts
  refine List.foldlRecOn (motive := fun (acc : Timetable × Nat × List SessionKey) ↦
    (Timetable.empty e).Edited acc.1) _ _ .refl fun acc hacc part _ ↦ ?_
  unfold commitSolution
  split
  · exact hacc
  · exact commitPart_edited hacc _

end Merge

/-- A merge edits the empty timetable of its catalog and accounts for every session. -/
theorem merge_edited (e : Catalog) (d : Domain) (parts : List ClusterSolution) :
    (Timetable.empty e).Edited (merge e d parts).1 ∧ (merge e d parts).1.Accounted := by
  unfold merge
  dsimp only
  -- the last step marks what is still missing; before it, collisions are placed greedily
  refine Timetable.Edited.foldl_mark_missing (fun t k ↦ (t.dominantBlocker d k).name) ?_
  split
  · exact Merge.commitParts_edited e parts
  · exact (Merge.commitParts_edited e parts).trans (Timetable.greedy_edited _ _ _)

/-! ## Accounting for every offered placement -/

/-- The placements a partial timetable offers the merge, in the order the merge tries them. -/
def ClusterSolution.offers (part : ClusterSolution) : List (SessionKey × Placement) :=
  match part.timetable with
  | none => []
  | some pt => pt.keys.filterMap fun k ↦ (pt.lookup k).map (k, ·)

namespace Merge

open Timetable

/-- What the merge has done after offering some placements `done`, in order: its timetable is an
edit of the empty one; each offer was committed or counted as a collision; the committed offers
are the placed sessions; every offered session is placed or collided; and a session that never
collided sits where its first offer put it. -/
structure Tally (e : Catalog) (done : List (SessionKey × Placement))
    (acc : Timetable × Nat × List SessionKey) : Prop where
  edited : (Timetable.empty e).Edited acc.1
  counted : acc.2.1 + acc.2.2.length = done.length
  size : acc.1.size = acc.2.1
  covered : ∀ k p, (k, p) ∈ done → k ∈ acc.1.placements ∨ k ∈ acc.2.2
  first : ∀ k p, k ∉ acc.2.2 → done.find? (·.1 == k) = some (k, p) → acc.1.lookup k = some p

variable {e : Catalog}

theorem tally_empty (e : Catalog) : Tally e [] (Timetable.empty e, 0, []) :=
  ⟨.refl, rfl, rfl, fun _ _ h ↦ absurd h List.not_mem_nil, fun _ _ _ h ↦ by simp at h⟩

/-- The first offer of a session among some offers and one more. -/
theorem find?_append_singleton (done : List (SessionKey × Placement)) (k k' : SessionKey)
    (p : Placement) :
    (done ++ [(k, p)]).find? (·.1 == k') =
      (done.find? (·.1 == k')).or (if k = k' then some (k, p) else none) := by
  rw [List.find?_append]
  by_cases h : k = k' <;> simp [h]

/-- Offering one more placement keeps the tally: an accepted offer places a session no earlier
offer placed, and a refused one is a collision. -/
theorem Tally.commitOffer {done : List (SessionKey × Placement)} {acc : Timetable × Nat × List SessionKey}
    (h : Tally e done acc) (k : SessionKey) (p : Placement) :
    Tally e (done ++ [(k, p)]) (commitOffer acc k p) := by
  obtain ⟨t, committed, collided⟩ := acc
  obtain ⟨hed, hcount, hsize, hcov, hfirst⟩ := h
  unfold Timetabling.commitOffer
  dsimp only at *
  split
  · rename_i t₁ ha
    -- the session was not placed, so no earlier offer of it went through
    have hunplaced : k ∉ t.placements := by
      obtain ⟨hc, -⟩ := assign_eq_ok.mp ha
      obtain ⟨c, hf⟩ := check_eq_none_iff.mp hc
      exact hf.unplaced
    refine ⟨hed.assign ha, by simp; omega, by rw [size_of_assign ha, hsize], fun k' p' hk' ↦ ?_,
      fun k' p' hk' hfind ↦ ?_⟩
    · rcases List.mem_append.mp hk' with hk' | hk'
      · rcases hcov k' p' hk' with hk' | hk'
        · exact .inl (by
            rw [(assign_eq_ok.mp ha).2.symm, place_placements, Std.HashMap.mem_insert]
            exact .inr hk')
        · exact .inr hk'
      · obtain ⟨rfl, rfl⟩ := Prod.mk.inj (List.mem_singleton.mp hk')
        have hl : t₁.placements[k']? = some p' := lookup_of_assign ha
        exact .inl (Std.HashMap.mem_iff_isSome_getElem?.mpr (by rw [hl]; rfl))
    · rw [find?_append_singleton] at hfind
      cases hd : done.find? (·.1 == k') with
      | some x =>
        rw [hd, Option.some_or] at hfind
        cases hfind
        exact lookup_of_assign_of_lookup ha (hfirst k' p' hk' hd)
      | none =>
        rw [hd, Option.none_or] at hfind
        split at hfind
        · rename_i hkk
          subst hkk
          cases hfind
          exact lookup_of_assign ha
        · cases hfind
  · refine ⟨hed, by simp; omega, hsize, fun k' p' hk' ↦ ?_, fun k' p' hk' hfind ↦ ?_⟩
    · rcases List.mem_append.mp hk' with hk' | hk'
      · rcases hcov k' p' hk' with hk' | hk'
        · exact .inl hk'
        · exact .inr (List.mem_append_left _ hk')
      · obtain ⟨rfl, rfl⟩ := Prod.mk.inj (List.mem_singleton.mp hk')
        exact .inr (List.mem_append_right _ (List.mem_singleton_self _))
    · -- the refused session now counts as a collision, so only others are asked about
      have hne : k ≠ k' := fun hkk ↦ hk' (hkk ▸ List.mem_append_right _ (List.mem_singleton_self _))
      rw [find?_append_singleton, if_neg hne, Option.or_none] at hfind
      exact hfirst k' p' (fun h ↦ hk' (List.mem_append_left _ h)) hfind

/-- Copying a reason moves nothing and keeps the tally. -/
theorem Tally.markUnscheduled {done : List (SessionKey × Placement)} {t : Timetable} {c : Nat}
    {collided : List SessionKey} (h : Tally e done (t, c, collided)) (k : SessionKey) (r : String) :
    Tally e done (t.markUnscheduled k r, c, collided) :=
  ⟨h.edited.markUnscheduled k r, h.counted, by simpa [Timetable.size] using h.size,
    fun k p hk ↦ by simpa using h.covered k p hk,
    fun k p hk hf ↦ by simpa [Timetable.lookup] using h.first k p hk hf⟩

/-- Offering the placements a part gives some sessions, in order, keeps the tally. -/
theorem Tally.foldl_commitKey (pt : Timetable) :
    ∀ (ks : List SessionKey) {done : List (SessionKey × Placement)}
      {acc : Timetable × Nat × List SessionKey}, Tally e done acc →
      Tally e (done ++ ks.filterMap fun k ↦ (pt.lookup k).map (k, ·)) (ks.foldl (commitKey pt) acc)
  | [], _, _, h => by simpa using h
  | k :: ks, done, acc, h => by
    rw [List.foldl_cons, List.filterMap_cons]
    cases hk : pt.lookup k with
    | none =>
      rw [show commitKey pt acc k = acc by simp [commitKey, hk]]
      simpa using Tally.foldl_commitKey pt ks h
    | some p =>
      rw [show commitKey pt acc k = Timetabling.commitOffer acc k p by simp [commitKey, hk]]
      simpa using Tally.foldl_commitKey pt ks (h.commitOffer k p)

/-- Merging a part offers its placements in key order, then copies its reasons; the tally is
kept. -/
theorem Tally.commitPart {done : List (SessionKey × Placement)} {acc : Timetable × Nat × List SessionKey}
    (h : Tally e done acc) (pt : Timetable) :
    Tally e (done ++ pt.keys.filterMap fun k ↦ (pt.lookup k).map (k, ·)) (Timetabling.commitPart acc pt) := by
  unfold Timetabling.commitPart
  have h' := Tally.foldl_commitKey pt pt.keys h
  generalize pt.keys.foldl (commitKey pt) acc = acc' at h' ⊢
  obtain ⟨t, c, collided⟩ := acc'
  dsimp only
  -- the reasons move nothing
  refine List.foldlRecOn (motive := fun t ↦ Tally e _ (t, c, collided)) _ _ h'
    fun t ht x _ ↦ ht.markUnscheduled _ _

theorem Tally.foldl_commitSolution :
    ∀ (ps : List ClusterSolution) {done : List (SessionKey × Placement)}
      {acc : Timetable × Nat × List SessionKey}, Tally e done acc →
      Tally e (done ++ ps.flatMap ClusterSolution.offers) (ps.foldl commitSolution acc)
  | [], _, _, h => by simpa using h
  | part :: ps, done, acc, h => by
    rw [List.foldl_cons, List.flatMap_cons, ← List.append_assoc]
    cases hpt : part.timetable with
    | none =>
      rw [show commitSolution acc part = acc by simp [commitSolution, hpt]]
      simpa [ClusterSolution.offers, hpt] using Tally.foldl_commitSolution ps h
    | some pt =>
      rw [show commitSolution acc part = Timetabling.commitPart acc pt by simp [commitSolution, hpt]]
      simpa [ClusterSolution.offers, hpt] using Tally.foldl_commitSolution ps (h.commitPart pt)

/-- After every part, in cluster order, the tally covers all their offers. -/
theorem tally_commitParts (e : Catalog) (parts : List ClusterSolution) :
    Tally e ((mergeOrder parts).flatMap ClusterSolution.offers) (commitParts e parts) := by
  unfold commitParts
  simpa using Tally.foldl_commitSolution (mergeOrder parts) (tally_empty e)

/-- The merge order sorts the parts by cluster id and keeps parts of one id in their given
order. -/
theorem mergeOrder_spec (parts : List ClusterSolution) :
    (mergeOrder parts).Perm parts ∧
      (mergeOrder parts).Pairwise (fun a b ↦ a.clusterId ≤ b.clusterId) ∧
      ∀ a b, a.clusterId = b.clusterId → [a, b].Sublist parts → [a, b].Sublist (mergeOrder parts) := by
  have trans : ∀ a b c : ClusterSolution, !decide (b.clusterId < a.clusterId) →
      !decide (c.clusterId < b.clusterId) → !decide (c.clusterId < a.clusterId) := by
    intro a b c hab hbc
    simp only [Bool.not_eq_eq_eq_not, Bool.not_true, decide_eq_false_iff_not, Int.not_lt] at *
    omega
  have total : ∀ a b : ClusterSolution,
      (!decide (b.clusterId < a.clusterId) || !decide (a.clusterId < b.clusterId)) := by
    intro a b
    simp only [Bool.or_eq_true, Bool.not_eq_eq_eq_not, Bool.not_true, decide_eq_false_iff_not,
      Int.not_lt]
    omega
  refine ⟨List.mergeSort_perm _ _, (List.pairwise_mergeSort trans total parts).imp ?_,
    fun a b hab hsub ↦ List.pair_sublist_mergeSort trans total (by simp [hab]) hsub⟩
  intro a b h
  simpa using h

/-- A part offers, for a session, the placement its timetable gives it. -/
theorem find?_offers (part : ClusterSolution) (k : SessionKey) :
    part.offers.find? (·.1 == k) = (part.timetable.bind (·.lookup k)).map (k, ·) := by
  unfold ClusterSolution.offers
  cases part.timetable with
  | none => rfl
  | some pt =>
    rw [List.find?_filterMap, Option.bind_some]
    cases hk : pt.lookup k with
    | none =>
      -- no key is offered as `k`: that would place `k`
      rw [List.find?_eq_none.mpr fun k' _ hk' ↦ ?_, Option.bind_none, Option.map_none]
      cases hk'' : pt.lookup k' with
      | none => simp [hk''] at hk'
      | some q =>
        simp only [hk'', Option.map_some, Option.any_some, beq_iff_eq] at hk'
        rw [hk'] at hk''
        simp [hk] at hk''
    | some p =>
      -- the keys list `k` once, and only `k` is offered as `k`
      have hmem : k ∈ pt.keys := (pt.keys_perm.mem_iff).mpr
        (Std.HashMap.mem_keys.mpr (Std.HashMap.mem_iff_isSome_getElem?.mpr (by
          rw [show pt.placements[k]? = pt.lookup k from rfl, hk]; rfl)))
      obtain ⟨as, bs, hsplit⟩ := List.append_of_mem hmem
      have hnd : pt.keys.Nodup := pt.keys_perm.nodup_iff.mpr Std.HashMap.nodup_keys
      have hnot : k ∉ as := by
        rw [hsplit] at hnd
        exact fun hk ↦ (List.nodup_append.mp hnd).2.2 k hk k List.mem_cons_self rfl
      have hfind : pt.keys.find? (fun a ↦ ((pt.lookup a).map (a, ·)).any (·.1 == k)) = some k := by
        rw [List.find?_eq_some_iff_append]
        refine ⟨by simp [hk], as, bs, hsplit, fun a ha ↦ ?_⟩
        cases ha' : pt.lookup a with
        | none => simp
        | some q =>
          have hne : a ≠ k := fun h ↦ hnot (h ▸ ha)
          simp [hne]
      simp [hfind, hk]

/-- The first offer of a session, over parts in a given order, is the placement of the first
part whose timetable places it. -/
theorem find?_flatMap_offers (k : SessionKey) :
    ∀ ps : List ClusterSolution, (ps.flatMap ClusterSolution.offers).find? (·.1 == k) =
      (ps.findSome? fun part ↦ part.timetable.bind (·.lookup k)).map (k, ·)
  | [] => rfl
  | part :: ps => by
    rw [List.flatMap_cons, List.find?_append, find?_offers, find?_flatMap_offers k ps,
      List.findSome?_cons]
    cases part.timetable.bind (·.lookup k) <;> rfl

/-- Every session a part places is offered by it. -/
theorem mem_offers {part : ClusterSolution} {pt : Timetable} (hpt : part.timetable = some pt)
    {k : SessionKey} (hk : k ∈ pt.placements) : ∃ p, (k, p) ∈ part.offers := by
  obtain ⟨p, hp⟩ := Option.isSome_iff_exists.mp (Std.HashMap.mem_iff_isSome_getElem?.mp hk)
  refine ⟨p, ?_⟩
  unfold ClusterSolution.offers
  rw [hpt, List.mem_filterMap]
  exact ⟨k, (pt.keys_perm.mem_iff).mpr (Std.HashMap.mem_keys.mpr hk), by simp [Timetable.lookup, hp]⟩

end Merge

open Merge in
/-- Merging accounts for every session. Every missing session of the result has a reason; every
session a part places is placed in the result or counted among the collisions; the committed
placements are the sessions placed before collisions are placed again, and with the re-placed
ones they are the result's sessions; every offer was either committed or refused by the merged
timetable and counted as a collision; the unscheduled count is the number of reasons; and a
session that never collided sits where the first part in merge order (`Merge.mergeOrder_spec`)
that places it put it. -/
theorem merge_accounts_for_every_session (e : Catalog) (d : Domain) (parts : List ClusterSolution) :
    (merge e d parts).1.Accounted ∧
      (∀ part ∈ parts, ∀ pt, part.timetable = some pt → ∀ k ∈ pt.placements,
        k ∈ (merge e d parts).1.placements ∨ k ∈ (commitParts e parts).2.2) ∧
      (commitParts e parts).1.size = (merge e d parts).2.committed ∧
      (merge e d parts).2.committed + (merge e d parts).2.replaced = (merge e d parts).1.size ∧
      (merge e d parts).2.collisions = (commitParts e parts).2.2.length ∧
      (merge e d parts).2.committed + (merge e d parts).2.collisions =
        (parts.flatMap ClusterSolution.offers).length ∧
      (merge e d parts).2.unscheduled = (merge e d parts).1.unscheduled.length ∧
      ∀ k p, k ∉ (commitParts e parts).2.2 →
        (mergeOrder parts).findSome? (fun part ↦ part.timetable.bind (·.lookup k)) = some p →
        (merge e d parts).1.lookup k = some p := by
  have htally := tally_commitParts e parts
  have hacc := (merge_edited e d parts).2
  rcases hc : commitParts e parts with ⟨t₁, committed, collided⟩
  rw [hc] at htally
  -- the collisions are placed greedily, which adds sessions and moves none
  obtain ⟨t₂, replaced, hgrow, hsize₂, hlook₂⟩ : ∃ t₂ replaced,
      (if collided.isEmpty then (t₁, 0) else t₁.greedy d collided) = (t₂, replaced) ∧
      t₂.size = t₁.size + replaced ∧ ∀ k q, t₁.lookup k = some q → t₂.lookup k = some q := by
    split
    · exact ⟨t₁, 0, rfl, rfl, fun _ _ h ↦ h⟩
    · exact ⟨_, _, rfl, Timetable.greedy_grows t₁ d collided⟩
  -- the last sweep only marks
  have hsweep := Timetable.foldl_mark (fun t k ↦ (t.dominantBlocker d k).name) t₂.missing t₂
  have hm : merge e d parts = (t₂.missing.foldl (fun t k ↦
      if (t.reason? k).isSome then t else t.markUnscheduled k (t.dominantBlocker d k).name) t₂,
      { committed, collisions := collided.length, replaced,
        unscheduled := (t₂.missing.foldl (fun t k ↦ if (t.reason? k).isSome then t
          else t.markUnscheduled k (t.dominantBlocker d k).name) t₂).unscheduled.length }) := by
    unfold merge
    rw [hc]
    dsimp only
    rw [hgrow]
  rw [hm] at hacc ⊢
  generalize t₂.missing.foldl _ t₂ = t₃ at hsweep hacc ⊢
  obtain ⟨-, hplaced, -⟩ := hsweep
  have hlook₃ : ∀ k q, t₁.lookup k = some q → t₃.lookup k = some q := fun k q h ↦ by
    have := hlook₂ k q h
    simpa [Timetable.lookup, hplaced] using this
  have hperm := ((mergeOrder_spec parts).1.flatMap_right ClusterSolution.offers)
  refine ⟨hacc, fun part hpart pt hpt k hk ↦ ?_, htally.size, ?_, rfl, ?_, rfl, fun k p hk hfirst ↦ ?_⟩
  · obtain ⟨p, hp⟩ := mem_offers hpt hk
    have hoff : (k, p) ∈ (mergeOrder parts).flatMap ClusterSolution.offers :=
      List.mem_flatMap.mpr ⟨part, (mergeOrder_spec parts).1.mem_iff.mpr hpart, hp⟩
    rcases htally.covered k p hoff with h | h
    · obtain ⟨q, hq⟩ := Option.isSome_iff_exists.mp (Std.HashMap.mem_iff_isSome_getElem?.mp h)
      exact .inl (Std.HashMap.mem_iff_isSome_getElem?.mpr (by
        rw [show t₃.placements[k]? = t₃.lookup k from rfl, hlook₃ k q hq]; rfl))
    · exact .inr h
  · rw [Timetable.size, hplaced, ← Timetable.size, hsize₂, htally.size]
  · rw [← hperm.length_eq, ← htally.counted]
  · refine hlook₃ k p (htally.first k p hk ?_)
    rw [find?_flatMap_offers, hfirst]
    rfl


end Timetabling
