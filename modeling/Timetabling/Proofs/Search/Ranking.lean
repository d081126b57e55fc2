import Mathlib.Data.Prod.Lex
import Mathlib.Data.String.Basic
import Mathlib.Order.Basic
import Timetabling.Proofs.Catalog.Sorted
import Timetabling.Search.Greedy

/-! # The greedy scheduler's two rankings

The greedy scheduler ranks twice, and both rankings are total orders in disguise.

It takes sessions hardest first. A difficulty is ranked by fewer options, then more students,
then more required features (`Difficulty.harder_iff`), and a session by its course's difficulty,
then the course id, then its number (`Catalog.sessionRank`). The comparison the scheduler sorts
by is exactly "lower rank" (`Catalog.goesBefore_iff`), and since the rank tells sessions apart,
the sorted list is the one ordering of the keys by rank (`Catalog.orderByDifficulty_is_sort`).

A session that fits nowhere is marked with the kind of conflict that refused most of its
candidates. The tally is folded kind by kind (`ConflictKind.prefer`), and whatever the order in
which the kinds are visited, as long as every counted kind is, the fold ends at the one kind that
`ConflictKind.IsDominant` allows: counted most often, ties going to the name that sorts first,
`none` for an empty tally (`ConflictKind.foldl_prefer_isDominant`, `ConflictKind.IsDominant.unique`).
So the choice does not depend on the visiting order (`ConflictKind.dominant_independent_of_order`). -/

namespace Timetabling

/-! ## Hardest first -/

namespace Difficulty

/-- A difficulty as a key of the lexicographic order: fewer options first, then more students,
then more required features. -/
def rank (d : Difficulty) : ℕ ×ₗ ℕᵒᵈ ×ₗ ℕᵒᵈ :=
  toLex (d.options, toLex (OrderDual.toDual d.enrollment, OrderDual.toDual d.features))

theorem harder_iff {d o : Difficulty} : d.harder o = true ↔ d.rank < o.rank := by
  simp only [harder, rank, Prod.Lex.toLex_lt_toLex, OrderDual.toDual_lt_toDual]
  by_cases ho : d.options = o.options <;> by_cases he : d.enrollment = o.enrollment <;>
    simp [ho, he]

end Difficulty

namespace Catalog

variable (e : Catalog) (d : Domain)

/-- The place of a session in the greedy order: its course's difficulty (an unknown course
counts as a course with no fields), then the course id, then the session number. -/
def sessionRank (k : SessionKey) : (ℕ ×ₗ ℕᵒᵈ ×ₗ ℕᵒᵈ) ×ₗ String ×ₗ Int :=
  toLex ((e.difficulty d k.course).rank, toLex (k.course, k.index))

theorem sessionRank_injective : Function.Injective (e.sessionRank d) := by
  rintro ⟨c, i⟩ ⟨c', i'⟩ h
  simp only [sessionRank, toLex_inj, Prod.mk.injEq] at h
  obtain ⟨-, rfl, rfl⟩ := h
  rfl

/-- The comparison the scheduler sorts by is "lower rank". -/
theorem goesBefore_iff (a b : SessionKey) :
    e.goesBefore d a b = true ↔ e.sessionRank d a < e.sessionRank d b := by
  unfold goesBefore sessionRank
  by_cases hc : a.course = b.course
  · -- one course: one difficulty, so only the numbers compare
    simp [hc, Prod.Lex.toLex_lt_toLex]
  · simp only [bne_iff_ne, ne_eq, hc, not_false_eq_true, if_true, Prod.Lex.toLex_lt_toLex, false_and,
      or_false]
    rcases lt_trichotomy (e.difficulty d a.course).rank (e.difficulty d b.course).rank
      with h | h | h
    · simp [Difficulty.harder_iff.mpr h, h]
    · simp [Difficulty.harder_iff, h]
    · simp [Difficulty.harder_iff, h, lt_asymm h, h.ne']

/-- Sorting by difficulty lists the keys in order of rank, keeping their input order among keys
of one rank. -/
theorem orderByDifficulty_sortedBy (ks : List SessionKey) :
    SortedBy (e.sessionRank d) ks (e.orderByDifficulty d ks) :=
  stableSort_sortedBy (goesBefore_iff e d) ks

/-- An ordering of the keys by rank is the one sorting by difficulty gives. -/
theorem eq_orderByDifficulty {ks ys : List SessionKey} (hperm : ys.Perm ks)
    (hsorted : ys.Pairwise fun a b ↦ e.sessionRank d a ≤ e.sessionRank d b) :
    ys = e.orderByDifficulty d ks := by
  have hsort := orderByDifficulty_sortedBy e d ks
  refine (hperm.trans hsort.perm.symm).eq_of_pairwise (fun _ _ _ _ hab hba ↦ ?_) hsorted
    hsort.sorted
  exact sessionRank_injective e d (le_antisymm hab hba)

/-- Sorting sessions by difficulty is a sort: the comparison is "lower rank" for a rank that tells
sessions apart (a strict total order on keys), the result is a permutation of the keys in order
of rank, and it is the only such permutation. -/
theorem orderByDifficulty_is_sort (ks : List SessionKey) :
    (∀ a b, e.goesBefore d a b = true ↔ e.sessionRank d a < e.sessionRank d b) ∧
    (e.orderByDifficulty d ks).Perm ks ∧
    (e.orderByDifficulty d ks).Pairwise (fun a b ↦ e.sessionRank d a ≤ e.sessionRank d b) ∧
    ∀ ys : List SessionKey, ys.Perm ks →
      ys.Pairwise (fun a b ↦ e.sessionRank d a ≤ e.sessionRank d b) →
      ys = e.orderByDifficulty d ks :=
  ⟨goesBefore_iff e d, (orderByDifficulty_sortedBy e d ks).perm,
    (orderByDifficulty_sortedBy e d ks).sorted, fun _ ↦ eq_orderByDifficulty e d⟩

end Catalog

/-! ## The dominant conflict -/

namespace ConflictKind

variable {tally : List ConflictKind} {k j l : ConflictKind}

theorem name_injective : Function.Injective name := by
  intro a b h
  cases a <;> cases b <;> simp_all [name]

/-- `k` is ahead of `j` in a tally, or level with it: counted more often, or as often with a
name that sorts no later. -/
def Ahead (tally : List ConflictKind) (k j : ConflictKind) : Prop :=
  tally.count j < tally.count k ∨ (tally.count j = tally.count k ∧ k.name ≤ j.name)

theorem Ahead.refl (k : ConflictKind) : Ahead tally k k :=
  .inr ⟨rfl, le_rfl⟩

theorem Ahead.trans (hkj : Ahead tally k j) (hjl : Ahead tally j l) : Ahead tally k l := by
  unfold Ahead at *
  rcases hkj with h₁ | ⟨h₁, n₁⟩ <;> rcases hjl with h₂ | ⟨h₂, n₂⟩
  · exact .inl (by omega)
  · exact .inl (by omega)
  · exact .inl (by omega)
  · exact .inr ⟨by omega, n₁.trans n₂⟩

/-- The dominant kind of a tally: counted most often, and of the kinds counted as often the one
whose name sorts first; `none` for an empty tally. -/
def IsDominant (tally : List ConflictKind) (k : ConflictKind) : Prop :=
  (tally = [] ∧ k = .none) ∨ (k ∈ tally ∧ ∀ j ∈ tally, Ahead tally k j)

instance (tally : List ConflictKind) (k j : ConflictKind) : Decidable (Ahead tally k j) :=
  inferInstanceAs (Decidable (_ ∨ _))

instance (tally : List ConflictKind) (k : ConflictKind) : Decidable (IsDominant tally k) :=
  inferInstanceAs (Decidable (_ ∨ _))

/-- A tally has at most one dominant kind. -/
theorem IsDominant.unique {k₁ k₂ : ConflictKind} (h₁ : IsDominant tally k₁)
    (h₂ : IsDominant tally k₂) : k₁ = k₂ := by
  rcases h₁ with ⟨rfl, rfl⟩ | ⟨hm₁, ha₁⟩ <;> rcases h₂ with ⟨he, rfl⟩ | ⟨hm₂, ha₂⟩
  · rfl
  · simp at hm₂
  · simp [he] at hm₁
  · -- each is ahead of the other: equal counts and names
    rcases ha₁ k₂ hm₂ with h | ⟨hc, hn⟩ <;> rcases ha₂ k₁ hm₁ with h' | ⟨hc', hn'⟩
    · omega
    · omega
    · omega
    · exact name_injective (le_antisymm hn hn')

/-- What the fold knows after visiting some kinds: no visited kind is counted and the best so far
is the starting `(none, 0)`, or the best so far is a counted kind with its count, ahead of every
counted kind visited. -/
def Leads (tally : List ConflictKind) (visited : List ConflictKind) (best : ConflictKind × ℕ) :
    Prop :=
  (best = (.none, 0) ∧ ∀ j ∈ visited, tally.count j = 0) ∨
  (best.1 ∈ tally ∧ best.2 = tally.count best.1 ∧
    ∀ j ∈ visited, 0 < tally.count j → Ahead tally best.1 j)

theorem leads_nil (tally : List ConflictKind) : Leads tally [] (.none, 0) :=
  .inl ⟨rfl, by simp⟩

/-- A kind takes over when it is counted, and counted more often than the best so far or as often
with a name that sorts first. -/
theorem prefer_eq (best : ConflictKind × ℕ) (k : ConflictKind) :
    prefer tally best k =
      if 0 < tally.count k ∧
          (best.2 < tally.count k ∨ (tally.count k = best.2 ∧ k.name < best.1.name))
      then (k, tally.count k) else best := by
  simp only [prefer, gt_iff_lt, Bool.and_eq_true, decide_eq_true_eq, Bool.or_eq_true, beq_iff_eq]

/-- Visiting one more kind keeps what the fold knows. -/
theorem Leads.visit {visited : List ConflictKind} {best : ConflictKind × ℕ}
    (h : Leads tally visited best) (k : ConflictKind) :
    Leads tally (visited ++ [k]) (prefer tally best k) := by
  have hmem : ∀ {j}, j ∈ visited ++ [k] ↔ j ∈ visited ∨ j = k := by simp
  rw [prefer_eq]
  split_ifs with hwin
  · -- `k` takes over: it beats the best so far, so it is ahead of every counted kind visited
    have hkv : ∀ j ∈ visited, 0 < tally.count j → Ahead tally k j := by
      rcases h with ⟨rfl, hv⟩ | ⟨-, hc, hv⟩
      · intro j hj hpos
        have := hv j hj
        omega
      · intro j hj hpos
        refine Ahead.trans ?_ (hv j hj hpos)
        rcases hwin.2 with hw | ⟨hw, hn⟩
        · exact .inl (by omega)
        · exact .inr ⟨by omega, le_of_lt hn⟩
    refine .inr ⟨List.count_pos_iff.mp hwin.1, rfl, fun j hj hpos ↦ ?_⟩
    rcases hmem.mp hj with hj | rfl
    · exact hkv j hj hpos
    · exact Ahead.refl j
  · -- the best so far stays: `k` is not counted, or the best is ahead of it
    simp only [not_and, not_or, not_lt] at hwin
    rcases h with ⟨rfl, hv⟩ | ⟨hm, hc, hv⟩
    · refine .inl ⟨rfl, fun j hj ↦ ?_⟩
      rcases hmem.mp hj with hj | rfl
      · exact hv j hj
      · by_contra hne
        have := (hwin (Nat.pos_of_ne_zero hne)).1
        omega
    · refine .inr ⟨hm, hc, fun j hj hpos ↦ ?_⟩
      rcases hmem.mp hj with hj | rfl
      · exact hv j hj hpos
      · obtain ⟨hle, hname⟩ := hwin hpos
        rcases Nat.lt_or_eq_of_le hle with hlt | heq
        · exact .inl (by omega)
        · exact .inr ⟨by omega, hname heq⟩

/-- Folding over a list of kinds keeps what the fold knows. -/
theorem Leads.foldl {visited : List ConflictKind} {best : ConflictKind × ℕ}
    (h : Leads tally visited best) (order : List ConflictKind) :
    Leads tally (visited ++ order) (order.foldl (prefer tally) best) := by
  induction order generalizing visited best with
  | nil => simpa using h
  | cons k rest ih =>
    simpa using ih (h.visit k)

/-- Folding the tally's kinds in any order that visits every counted kind ends at the dominant
kind. -/
theorem foldl_prefer_isDominant (order : List ConflictKind) (hcover : ∀ k ∈ tally, k ∈ order) :
    IsDominant tally (order.foldl (prefer tally) (.none, 0)).1 := by
  rcases (leads_nil tally).foldl order with ⟨hb, hv⟩ | ⟨hm, -, hv⟩
  · -- no counted kind was visited, and every counted kind was: the tally is empty
    refine .inl ⟨List.eq_nil_iff_forall_not_mem.mpr fun k hk ↦ ?_, by rw [hb]⟩
    have := hv k (by simpa using hcover k hk)
    exact (List.count_pos_iff.mpr hk).ne' this
  · exact .inr ⟨hm, fun j hj ↦ hv j (by simpa using hcover j hj) (List.count_pos_iff.mpr hj)⟩

theorem mem_all (k : ConflictKind) : k ∈ all := by
  cases k <;> simp [all]

theorem dominant_isDominant (tally : List ConflictKind) : IsDominant tally (dominant tally) :=
  foldl_prefer_isDominant all fun k _ ↦ mem_all k

example : dominant [.room, .faculty, .room, .faculty] = .faculty := by decide

/-- The dominant conflict does not depend on the order in which the tally's kinds are visited:
any order that visits every counted kind ends at the same kind, the one counted most often,
ties going to the name that sorts first, and `none` for an empty tally. -/
theorem dominant_independent_of_order (tally order : List ConflictKind)
    (hcover : ∀ k ∈ tally, k ∈ order) :
    (order.foldl (prefer tally) (.none, 0)).1 = dominant tally ∧
    IsDominant tally (dominant tally) :=
  ⟨(foldl_prefer_isDominant order hcover).unique (dominant_isDominant tally),
    dominant_isDominant tally⟩

/-- Two kinds refused twice each, the kinds visited in reverse declaration order. -/
theorem dominant_independent_of_order_tiedRefusals :
    (∀ k ∈ [room, faculty, room, faculty], k ∈ all.reverse) ∧
      ((all.reverse.foldl (prefer [room, faculty, room, faculty]) (.none, 0)).1 =
          dominant [room, faculty, room, faculty] ∧
        IsDominant [room, faculty, room, faculty] (dominant [room, faculty, room, faculty])) :=
  ⟨by decide, dominant_independent_of_order _ _ (by decide)⟩

end ConflictKind

namespace Timetable

/-- The kind of conflict a session's candidates are refused for most, on a recheck, is the
dominant kind of the recheck's refusals (a candidate accepted counting as `none`). -/
theorem dominantBlocker_isDominant (t : Timetable) (d : Domain) (key : SessionKey)
    (hc : d.forKey key ≠ []) :
    ConflictKind.IsDominant ((d.forKey key).map fun p ↦ ((t.check key p).map (·.kind)).getD .none)
      (t.dominantBlocker d key) := by
  unfold dominantBlocker
  split
  · contradiction
  · exact ConflictKind.dominant_isDominant _

end Timetable

end Timetabling
