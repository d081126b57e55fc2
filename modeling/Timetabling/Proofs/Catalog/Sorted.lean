import Mathlib.Data.String.Basic
import Mathlib.Order.Basic
import Timetabling.Catalog.Basic

/-! # Stable sorting

`stableSort` sorts with `List.mergeSort`, which is stable: records with one key keep their input
order. `SortedBy key xs ys` says that `ys` lists `xs` in order of `key` in this way. That pins `ys`
down (`SortedBy.unique`), and so sorting depends only on the records of each key in their input
order (`stableSort_congr`). A catalog is rebuilt from its sorted records with a course more or
fewer; this is why the rebuilt catalog lists its records as a fresh build would. -/

namespace Timetabling

variable {α κ : Type} [LinearOrder κ]

/-- `ys` lists the records of `xs` in order of `key`, and the records of one key in their order in
`xs`. -/
structure SortedBy (key : α → κ) (xs ys : List α) : Prop where
  sorted : ys.Pairwise fun a b ↦ key a ≤ key b
  stable : ∀ k, ys.filter (key · = k) = xs.filter (key · = k)

namespace SortedBy

variable {key : α → κ}

/-- A sorted listing has the records of the original. -/
theorem perm {xs ys : List α} (h : SortedBy key xs ys) : ys.Perm xs := by
  classical
  refine List.perm_iff_count.mpr fun a ↦ ?_
  have hk := congrArg (List.count a) (h.stable (key a))
  rwa [List.count_filter (by simp), List.count_filter (by simp)] at hk

/-- Two lists sorted by one key, with the same records of each key in the same order, are
equal. -/
theorem eq_of_filter_eq : ∀ {ys zs : List α}, ys.Pairwise (fun a b ↦ key a ≤ key b) →
    zs.Pairwise (fun a b ↦ key a ≤ key b) → (∀ k, ys.filter (key · = k) = zs.filter (key · = k)) →
    ys = zs
  | [], [], _, _, _ => rfl
  | [], b :: bs, _, _, h => by simpa using h (key b)
  | a :: as, [], _, _, h => by simpa using h (key a)
  | a :: as, b :: bs, hys, hzs, h => by
    -- the heads have one key: each lies among the other list's later records of its key
    have hkey : key a = key b := by
      by_contra hne
      have ha := h (key a)
      have hb := h (key b)
      simp only [List.filter_cons, decide_true, if_true, hne, Ne.symm hne, decide_false,
        Bool.false_eq_true, if_false] at ha hb
      have hab : a ∈ bs := List.mem_of_mem_filter (ha ▸ List.mem_cons_self)
      have hba : b ∈ as := List.mem_of_mem_filter (hb ▸ List.mem_cons_self)
      exact hne (le_antisymm (List.rel_of_pairwise_cons hys hba) (List.rel_of_pairwise_cons hzs hab))
    have hab : a = b := by
      have ha := h (key a)
      rw [List.filter_cons_of_pos (by simp), List.filter_cons_of_pos (by simp [hkey])] at ha
      exact (List.cons.inj ha).1
    subst hab
    refine congrArg (a :: ·) (eq_of_filter_eq hys.of_cons hzs.of_cons fun k ↦ ?_)
    have hk := h k
    by_cases hak : key a = k
    · rw [List.filter_cons_of_pos (by simpa using hak), List.filter_cons_of_pos (by simpa using hak)]
        at hk
      exact (List.cons.inj hk).2
    · rwa [List.filter_cons_of_neg (by simpa using hak), List.filter_cons_of_neg (by simpa using hak)]
        at hk

/-- A sorted listing of a list is the only one. -/
theorem unique {xs ys zs : List α} (hy : SortedBy key xs ys) (hz : SortedBy key xs zs) : ys = zs :=
  eq_of_filter_eq hy.sorted hz.sorted fun k ↦ (hy.stable k).trans (hz.stable k).symm

/-- A sorted listing of `xs` is one of any list with the same records of each key in the same
order. -/
theorem of_filter_eq {xs xs' ys : List α} (h : SortedBy key xs ys)
    (hx : ∀ k, xs.filter (key · = k) = xs'.filter (key · = k)) : SortedBy key xs' ys :=
  ⟨h.sorted, fun k ↦ (h.stable k).trans (hx k)⟩

end SortedBy

/-- Merge sort by a comparison that agrees with the order of keys lists a list in order of key,
stably. -/
theorem mergeSort_sortedBy {key : α → κ} {le : α → α → Bool}
    (hle : ∀ a b, le a b = true ↔ key a ≤ key b) (xs : List α) :
    SortedBy key xs (xs.mergeSort le) := by
  have trans : ∀ a b c, le a b → le b c → le a c := fun a b c hab hbc ↦
    (hle a c).mpr (le_trans ((hle a b).mp hab) ((hle b c).mp hbc))
  have total : ∀ a b, (le a b || le b a) = true := fun a b ↦ by
    rcases le_total (key a) (key b) with h | h <;> simp [(hle _ _).mpr h]
  refine ⟨(List.pairwise_mergeSort trans total xs).imp fun h ↦ (hle _ _).mp h, fun k ↦ ?_⟩
  -- the records of key `k`, in input order, stay a sublist of the sorted list
  have hsub : (xs.filter (key · = k)).Sublist (xs.mergeSort le) := by
    refine List.sublist_mergeSort trans total ?_ List.filter_sublist
    refine List.pairwise_of_forall_mem_list fun a ha b hb ↦ (hle a b).mpr ?_
    rw [(by simpa using List.of_mem_filter ha : key a = k),
      (by simpa using List.of_mem_filter hb : key b = k)]
  have hsub' := hsub.filter (key · = k)
  rw [List.filter_filter, List.filter_congr (fun x _ ↦ Bool.and_self _)] at hsub'
  exact (hsub'.eq_of_length ((List.mergeSort_perm xs le).filter _).length_eq.symm).symm

/-- `stableSort` by a strict comparison that agrees with the order of keys lists a list in order
of key, stably. -/
theorem stableSort_sortedBy {key : α → κ} {lt : α → α → Bool}
    (hlt : ∀ a b, lt a b = true ↔ key a < key b) (xs : List α) :
    SortedBy key xs (stableSort lt xs) :=
  mergeSort_sortedBy (fun a b ↦ by simp [Bool.eq_false_iff, hlt]) xs

/-- Sorting depends only on the records of each key in their input order. -/
theorem stableSort_congr {key : α → κ} {lt : α → α → Bool}
    (hlt : ∀ a b, lt a b = true ↔ key a < key b) {xs xs' : List α}
    (h : ∀ k, xs.filter (key · = k) = xs'.filter (key · = k)) :
    stableSort lt xs = stableSort lt xs' :=
  ((stableSort_sortedBy hlt xs).of_filter_eq h).unique (stableSort_sortedBy hlt xs')

/-- Sorting a sorted list with records appended sorts the original list with them appended. -/
theorem stableSort_stableSort_append {key : α → κ} {lt : α → α → Bool}
    (hlt : ∀ a b, lt a b = true ↔ key a < key b) (xs r : List α) :
    stableSort lt (stableSort lt xs ++ r) = stableSort lt (xs ++ r) :=
  stableSort_congr hlt fun k ↦ by
    rw [List.filter_append, List.filter_append, (stableSort_sortedBy hlt xs).stable k]

/-- Sorting some records of a sorted list sorts those records of the original list. -/
theorem stableSort_filter_stableSort {key : α → κ} {lt : α → α → Bool}
    (hlt : ∀ a b, lt a b = true ↔ key a < key b) (xs : List α) (p : α → Bool) :
    stableSort lt ((stableSort lt xs).filter p) = stableSort lt (xs.filter p) :=
  stableSort_congr hlt fun k ↦ by
    rw [List.filter_filter, List.filter_congr (fun x _ ↦ Bool.and_comm _ _), ← List.filter_filter,
      (stableSort_sortedBy hlt xs).stable k, List.filter_filter,
      List.filter_congr (fun x _ ↦ Bool.and_comm _ _), ← List.filter_filter]

end Timetabling
