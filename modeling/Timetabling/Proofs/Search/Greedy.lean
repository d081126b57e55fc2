import Timetabling.Proofs.Timetable.Restore
import Timetabling.Search.Greedy

/-! # Greedy placement only adds

The greedy scheduler takes the sessions it is given one at a time (`Timetable.greedyStep`). A
session already placed is skipped; any other is placed at the first candidate the timetable
accepts, or marked with a reason. So one step skips, marks, or makes one accepted placement
(`Timetable.greedyStep_cases`), and every fact about greedy placement is a fold of that one case
split: it is an edit (`Timetable.greedy_edited`), it moves no placement and counts what it adds
(`Timetable.greedy_grows`), it changes no session it was not given
(`Timetable.greedy_sameExcept`), and it leaves every session it was given placed or with a
reason (`Timetable.greedy_explained`). Together: greedy placement only adds
(`Timetable.greedy_only_adds`). -/

namespace Timetabling

namespace Timetable

variable {t t' : Timetable} {k k' : SessionKey} {p q : Placement}

/-! ## One accepted placement -/

/-- A placement accepted adds one session. -/
theorem size_of_assign (h : t.assign k p = .ok t') : t'.size = t.size + 1 := by
  obtain ⟨hc, rfl⟩ := assign_eq_ok.mp h
  obtain ⟨c, hf⟩ := check_eq_none_iff.mp hc
  simp [size, Std.HashMap.size_insert, hf.unplaced]

/-- A placement accepted places its session there. -/
theorem lookup_of_assign (h : t.assign k p = .ok t') : t'.lookup k = some p := by
  obtain ⟨-, rfl⟩ := assign_eq_ok.mp h
  simp [lookup]

/-- A placement accepted moves no session placed before. -/
theorem lookup_of_assign_of_lookup (h : t.assign k p = .ok t') (hk : t.lookup k' = some q) :
    t'.lookup k' = some q := by
  obtain ⟨hc, rfl⟩ := assign_eq_ok.mp h
  obtain ⟨c, hf⟩ := check_eq_none_iff.mp hc
  have hk' : t.placements[k']? = some q := hk
  have hne : k ≠ k' := by
    rintro rfl
    exact hf.unplaced (Std.HashMap.mem_iff_isSome_getElem?.mpr (by rw [hk']; rfl))
  simpa [lookup, Std.HashMap.getElem?_insert, hne] using hk'

/-- Placing a session at the first of some placements that the timetable accepts is an accepted
placement. -/
theorem firstFit_eq_ok : ∀ {ps : List Placement} {refused : List ConflictKind},
    t.firstFit k ps refused = .ok (t', p) → t.assign k p = .ok t'
  | [], _, h => nomatch h
  | q :: ps, refused, h => by
    unfold firstFit at h
    split at h
    · rename_i t₁ ha
      cases h
      exact ha
    · exact firstFit_eq_ok h

/-! ## One step -/

/-- One step of greedy placement skips a session already placed, marks its session, or makes an
accepted placement of it and counts one more. -/
theorem greedyStep_cases (d : Domain) (t : Timetable) (loads : Std.HashMap Int Nat) (placed : Nat)
    (key : SessionKey) :
    (t.isPlaced key = true ∧ greedyStep d (t, loads, placed) key = (t, loads, placed)) ∨
    (∃ r, greedyStep d (t, loads, placed) key = (t.markUnscheduled key r, loads, placed)) ∨
    (∃ t' p loads', t.assign key p = .ok t' ∧
      greedyStep d (t, loads, placed) key = (t', loads', placed + 1)) := by
  unfold greedyStep
  dsimp only
  split
  · rename_i hplaced
    exact .inl ⟨hplaced, rfl⟩
  -- a session with candidates is placed at the first accepted one, or marked
  split
  · exact .inr (.inl ⟨_, rfl⟩)
  split
  · rename_i t' p hfit
    exact .inr (.inr ⟨t', p, _, firstFit_eq_ok hfit, rfl⟩)
  · exact .inr (.inl ⟨_, rfl⟩)

/-- Greedy placement is the fold of its step over the sessions, hardest first. -/
theorem greedy_eq (t : Timetable) (d : Domain) (keys : List SessionKey) :
    t.greedy d keys = (((t.catalog.orderByDifficulty d keys).foldl (greedyStep d)
      (t, t.dayLoads, 0)).1, ((t.catalog.orderByDifficulty d keys).foldl (greedyStep d)
      (t, t.dayLoads, 0)).2.2) :=
  rfl

/-- The sessions greedy placement takes are the ones it is given. -/
theorem mem_orderByDifficulty {e : Catalog} {d : Domain} {keys : List SessionKey} :
    k ∈ e.orderByDifficulty d keys ↔ k ∈ keys := by
  simp [Catalog.orderByDifficulty, stableSort, List.mem_mergeSort]

/-! ## The whole list -/

/-- Greedy placement is an edit. -/
theorem greedy_edited (t : Timetable) (d : Domain) (keys : List SessionKey) :
    Edited t (t.greedy d keys).1 := by
  rw [greedy_eq]
  refine List.foldlRecOn (motive := fun (acc : Timetable × Std.HashMap Int Nat × Nat) ↦
    Edited t acc.1) _ _ .refl fun ⟨t₁, loads, placed⟩ hacc key _ ↦ ?_
  rcases greedyStep_cases d t₁ loads placed key with ⟨-, h⟩ | ⟨r, h⟩ | ⟨t₂, p, loads', ha, h⟩ <;>
    rw [h]
  · exact hacc
  · exact hacc.markUnscheduled _ _
  · exact hacc.assign ha

/-- Greedy placement adds as many sessions as it reports placed, and moves none placed before. -/
theorem greedy_grows (t : Timetable) (d : Domain) (keys : List SessionKey) :
    (t.greedy d keys).1.size = t.size + (t.greedy d keys).2 ∧
      ∀ k q, t.lookup k = some q → (t.greedy d keys).1.lookup k = some q := by
  rw [greedy_eq]
  refine List.foldlRecOn (motive := fun (acc : Timetable × Std.HashMap Int Nat × Nat) ↦
    acc.1.size = t.size + acc.2.2 ∧ ∀ k q, t.lookup k = some q → acc.1.lookup k = some q)
    _ _ ⟨rfl, fun _ _ h ↦ h⟩ fun acc ⟨hsize, hlook⟩ key _ ↦ ?_
  obtain ⟨t₁, loads, placed⟩ := acc
  dsimp only at hsize hlook
  -- a mark moves nothing; an accepted placement adds its session and moves nothing
  rcases greedyStep_cases d t₁ loads placed key with ⟨-, h⟩ | ⟨r, h⟩ | ⟨t₂, p, loads', ha, h⟩ <;>
    rw [h] <;> dsimp only
  · exact ⟨hsize, hlook⟩
  · exact ⟨by simpa [size] using hsize, fun k q h ↦ by simpa [lookup] using hlook k q h⟩
  · exact ⟨by rw [size_of_assign ha]; omega,
      fun k q h ↦ lookup_of_assign_of_lookup ha (hlook k q h)⟩

variable {S : List SessionKey}

/-- Marking a session changes nothing outside it. -/
theorem sameExcept_markUnscheduled (hk : k ∈ S) (t : Timetable) (r : String) :
    SameExcept S t (t.markUnscheduled k r) where
  catalog := markUnscheduled_catalog t k r
  placements k' _ := by rw [markUnscheduled_placements]
  reasons k' hk' := by
    have hne : k ≠ k' := fun h ↦ hk' (h ▸ hk)
    rw [reason?_markUnscheduled, if_neg fun h ↦ hne h.2]

/-- Greedy placement changes only the sessions it is given. -/
theorem greedy_sameExcept (t : Timetable) (d : Domain) (keys : List SessionKey) :
    SameExcept keys t (t.greedy d keys).1 := by
  rw [greedy_eq]
  refine List.foldlRecOn (motive := fun (acc : Timetable × Std.HashMap Int Nat × Nat) ↦
    SameExcept keys t acc.1) _ _ .refl fun ⟨t₁, loads, placed⟩ hacc key hkey ↦ ?_
  have hk : key ∈ keys := mem_orderByDifficulty.mp hkey
  rcases greedyStep_cases d t₁ loads placed key with ⟨-, h⟩ | ⟨r, h⟩ | ⟨t₂, p, loads', ha, h⟩ <;>
    rw [h]
  · exact hacc
  · exact hacc.trans (sameExcept_markUnscheduled hk _ _)
  · exact hacc.trans (sameExcept_assign hk ha)

/-! ## Every session given is explained -/

/-- A session is explained by a timetable that places it or gives it a reason. -/
def Explained (t : Timetable) (k : SessionKey) : Prop :=
  k ∈ t.placements ∨ (t.reason? k).isSome

/-- A timetable that explains everything another explains explains each session it does. -/
theorem Explains.explained (h : Explains t t') (hk : t.Explained k) : t'.Explained k := by
  by_contra hk'
  simp only [Explained, not_or, Option.not_isSome_iff_eq_none] at hk'
  obtain ⟨hp, hr⟩ := h k hk'.1 hk'.2
  rcases hk with hk | hk
  · exact hp hk
  · simp [hr] at hk

/-- A session marked is explained: by its placement if it had one, or else by the reason. -/
theorem explained_markUnscheduled (t : Timetable) (k : SessionKey) (r : String) :
    (t.markUnscheduled k r).Explained k := by
  by_cases hk : k ∈ t.placements
  · exact .inl (by rwa [markUnscheduled_placements])
  · exact .inr (by simp [reason?_markUnscheduled, hk])

/-- One step of greedy placement keeps what was explained and explains its own session. -/
theorem greedyStep_explains (d : Domain) (acc : Timetable × Std.HashMap Int Nat × Nat)
    (key : SessionKey) :
    Explains acc.1 (greedyStep d acc key).1 ∧ (greedyStep d acc key).1.Explained key := by
  obtain ⟨t₁, loads, placed⟩ := acc
  rcases greedyStep_cases d t₁ loads placed key with ⟨hp, h⟩ | ⟨r, h⟩ | ⟨t₂, p, loads', ha, h⟩ <;>
    rw [h]
  · exact ⟨.refl _, .inl (Std.HashMap.contains_iff_mem.mp hp)⟩
  · exact ⟨explains_markUnscheduled _ _ _, explained_markUnscheduled _ _ _⟩
  · exact ⟨explains_assign ha,
      .inl (Std.HashMap.mem_iff_isSome_getElem?.mpr (by rw [← lookup, lookup_of_assign ha]; rfl))⟩

/-- Greedy steps over a list keep what was explained. -/
theorem foldl_greedyStep_explains (d : Domain) (l : List SessionKey)
    (acc : Timetable × Std.HashMap Int Nat × Nat) :
    Explains acc.1 (l.foldl (greedyStep d) acc).1 :=
  List.foldlRecOn (motive := fun acc' ↦ Explains acc.1 acc'.1) _ _ (.refl _)
    fun acc' h key _ ↦ h.trans (greedyStep_explains d acc' key).1

/-- Greedy placement leaves each session it was given placed or with a reason. -/
theorem greedy_explained (t : Timetable) (d : Domain) (keys : List SessionKey) :
    ∀ k ∈ keys, (t.greedy d keys).1.Explained k := by
  intro k hk
  -- the step that takes `k` explains it, and the steps after it keep that
  obtain ⟨l₁, l₂, hsplit⟩ := List.append_of_mem (mem_orderByDifficulty.mpr hk :
    k ∈ t.catalog.orderByDifficulty d keys)
  rw [greedy_eq, hsplit, List.foldl_append, List.foldl_cons]
  exact (foldl_greedyStep_explains d l₂ _).explained (greedyStep_explains d _ k).2

/-- Greedy placement only adds. It keeps every placement made before; it leaves the placement and
the reason of every session it was not given as they were; it leaves each session it was given
placed or with a reason; and the number it reports placed is the number of sessions the
timetable gained. -/
theorem greedy_only_adds (t : Timetable) (d : Domain) (keys : List SessionKey) :
    (∀ k p, t.lookup k = some p → (t.greedy d keys).1.lookup k = some p) ∧
    (∀ k, k ∉ keys →
      (t.greedy d keys).1.lookup k = t.lookup k ∧ (t.greedy d keys).1.reason? k = t.reason? k) ∧
    (∀ k ∈ keys, k ∈ (t.greedy d keys).1.placements ∨ ((t.greedy d keys).1.reason? k).isSome) ∧
    (t.greedy d keys).1.size = t.size + (t.greedy d keys).2 := by
  obtain ⟨hsize, hkeep⟩ := greedy_grows t d keys
  have hsame := greedy_sameExcept t d keys
  exact ⟨hkeep, fun k hk ↦ ⟨hsame.placements k hk, hsame.reasons k hk⟩,
    greedy_explained t d keys, hsize⟩

end Timetable

end Timetabling
