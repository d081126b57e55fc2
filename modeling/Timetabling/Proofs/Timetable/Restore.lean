import Mathlib.Data.List.Perm.Subperm
import Timetabling.Proofs.Timetable.Assignable
import Timetabling.Proofs.Timetable.Edited

/-! # Putting placements back

A search that displaces sessions undoes its work by removing what it moved and assigning the old
placements again. In a reachable timetable this never fails. A timetable that holds some of the
placements of a reachable timetable `t₀`, over the same catalog, accepts any other placement of
`t₀` (`Reachable.check_eq_none_of_within`): whatever would stand in its way, a staff member, a
room, a student or a full weekly load, would stand in its way in `t₀` too. So the missing
placements of `t₀` can be assigned back in any order (`Reachable.assignAll_within`).

`SameExcept S t t'` says that `t'` keeps the catalog, and the placement and the reason of every
session outside `S`, of `t`; placing or removing a session changes nothing outside it. -/

namespace Timetabling

namespace Timetable

/-! ## Edits outside a list of sessions -/

/-- `t'` has the catalog of `t`, and the placement and the reason of every session outside `S`. -/
structure SameExcept (S : List SessionKey) (t t' : Timetable) : Prop where
  catalog : t'.catalog = t.catalog
  placements : ∀ k, k ∉ S → t'.placements[k]? = t.placements[k]?
  reasons : ∀ k, k ∉ S → t'.reason? k = t.reason? k

namespace SameExcept

variable {S S' : List SessionKey} {t t₁ t₂ : Timetable}

theorem refl : SameExcept S t t := ⟨rfl, fun _ _ ↦ rfl, fun _ _ ↦ rfl⟩

theorem trans (h₁ : SameExcept S t t₁) (h₂ : SameExcept S t₁ t₂) : SameExcept S t t₂ :=
  ⟨h₂.catalog.trans h₁.catalog, fun k hk ↦ (h₂.placements k hk).trans (h₁.placements k hk),
    fun k hk ↦ (h₂.reasons k hk).trans (h₁.reasons k hk)⟩

theorem mono (h : SameExcept S t t₁) (hS : S ⊆ S') : SameExcept S' t t₁ :=
  ⟨h.catalog, fun k hk ↦ h.placements k fun h' ↦ hk (hS h'),
    fun k hk ↦ h.reasons k fun h' ↦ hk (hS h')⟩

theorem mem_placements (h : SameExcept S t t₁) {k : SessionKey} (hk : k ∉ S) :
    k ∈ t₁.placements ↔ k ∈ t.placements := by
  simp only [Std.HashMap.mem_iff_isSome_getElem?, h.placements k hk]

end SameExcept

variable {S : List SessionKey} {k : SessionKey}

/-- Placing a session changes nothing outside it. -/
theorem sameExcept_place (hk : k ∈ S) (t : Timetable) (p : Placement) :
    SameExcept S t (t.place k p) where
  catalog := rfl
  placements k' hk' := by
    have hne : k ≠ k' := fun h ↦ hk' (h ▸ hk)
    simp [Std.HashMap.getElem?_insert, hne]
  reasons k' hk' := by
    have hne : k ≠ k' := fun h ↦ hk' (h ▸ hk)
    simp [reason?, Std.HashMap.getElem?_erase, hne]

/-- Removing a session changes nothing outside it. -/
theorem sameExcept_unassign (hk : k ∈ S) (t : Timetable) : SameExcept S t (t.unassign k).2 := by
  cases hp : t.placements[k]? with
  | none =>
    rw [unassign_of_getElem?_eq_none hp]
    exact .refl
  | some p =>
    rw [unassign_of_getElem? hp]
    refine ⟨rfl, fun k' hk' ↦ ?_, fun _ _ ↦ rfl⟩
    have hne : k ≠ k' := fun h ↦ hk' (h ▸ hk)
    simp [Std.HashMap.getElem?_erase, hne]

theorem sameExcept_assign (hk : k ∈ S) {t t' : Timetable} {p : Placement}
    (h : t.assign k p = .ok t') : SameExcept S t t' := by
  obtain ⟨-, rfl⟩ := assign_eq_ok.mp h
  exact sameExcept_place hk t p

/-- Removing sessions one after another changes nothing outside them. -/
theorem sameExcept_foldl_unassign (L : List SessionKey) (hL : L ⊆ S) :
    ∀ t : Timetable, SameExcept S t (L.foldl (fun t k ↦ (t.unassign k).2) t) := by
  induction L with
  | nil => exact fun _ ↦ .refl
  | cons k L ih =>
    intro t
    have hk : k ∈ S := hL (List.mem_cons_self ..)
    exact (sameExcept_unassign hk t).trans (ih (fun _ h ↦ hL (List.mem_cons_of_mem _ h)) _)

/-- Sessions removed one after another are no longer placed, and nothing else is placed anew. -/
theorem mem_foldl_unassign (L : List SessionKey) :
    ∀ (t : Timetable) (k : SessionKey),
      k ∈ (L.foldl (fun t k ↦ (t.unassign k).2) t).placements ↔ k ∉ L ∧ k ∈ t.placements := by
  induction L with
  | nil => simp
  | cons k' L ih =>
    intro t k
    rw [List.foldl_cons, ih, mem_unassign_placements]
    simp only [List.mem_cons, not_or]
    tauto

/-! ## Placements among those of another timetable -/

/-- Every placement of `t` is a placement of `t₀`. -/
structure Within (t t₀ : Timetable) : Prop where
  placement : ∀ {k : SessionKey} {p : Placement}, t.placements[k]? = some p →
    t₀.placements[k]? = some p

section MapCount

variable {α β : Type} [BEq α] [Hashable α] [LawfulBEq α]

/-- A map whose entries are among those of another counts no more of them. -/
theorem countP_toList_le {m m' : Std.HashMap α β} (h : ∀ (a : α) (b : β), m[a]? = some b → m'[a]? = some b)
    (q : α × β → Bool) : m.toList.countP q ≤ m'.toList.countP q := by
  have hnodup : m.toList.Nodup :=
    Std.HashMap.distinct_keys_toList.imp fun hne heq ↦ by simp [heq] at hne
  have hsub : m.toList ⊆ m'.toList := fun x hx ↦
    Std.HashMap.mem_toList_iff_getElem?_eq_some.mpr
      (h _ _ (Std.HashMap.mem_toList_iff_getElem?_eq_some.mp hx))
  exact (hnodup.subperm hsub).countP_le q

end MapCount

/-- A timetable within `t₀` that lacks a placement of `t₀` counts fewer sessions of every count
that placement passes. -/
theorem placedCount_lt_of_within {t t₀ : Timetable} (hw : t.Within t₀) {p : Placement}
    (hp : t₀.placements[k]? = some p) (hk : k ∉ t.placements) {q : SessionKey → Placement → Bool}
    (hq : q k p = true) : t.placedCount q < t₀.placedCount q := by
  rw [placedCount_erase hp q, if_pos hq]
  -- the placements of `t` are among those of `t₀` other than `k`
  have hle : t.placedCount q ≤ ({ t₀ with placements := t₀.placements.erase k } : Timetable).placedCount q := by
    refine countP_toList_le (fun k' p' h ↦ ?_) _
    have hne : k ≠ k' := by
      rintro rfl
      exact hk (Std.HashMap.mem_iff_isSome_getElem?.mpr (by simp [h]))
    simp [Std.HashMap.getElem?_erase, hne, hw.placement h]
  omega

/-- A reachable timetable within a reachable `t₀`, over its catalog, accepts every placement of
`t₀` it lacks: anything holding the staff member, room or a student in that slot would hold it
beside the placement in `t₀`, and the staff member's load is below the one in `t₀`. -/
theorem Reachable.check_eq_none_of_within {t t₀ : Timetable} (ht : t.Reachable)
    (h₀ : t₀.Reachable) (hc : t.catalog = t₀.catalog) (hw : t.Within t₀) {p : Placement}
    (hp : t₀.placements[k]? = some p) (hk : k ∉ t.placements) : t.check k p = none := by
  have hco := ht.coherent
  have hco₀ := h₀.coherent
  have hx := hco₀.exclusive
  obtain ⟨c, hcourse, h0, hlt, hslot, hroom, havail⟩ := hco₀.admissible hp
  have hfac : t₀.facultyOf k.course = c.facultyId := by simp [facultyOf, hcourse]
  have hslotOf : t₀.slotOf k = some p.slot := by simp [slotOf, hp]
  have hof : t.facultyOf = t₀.facultyOf := facultyOf_of_catalog hc
  -- a session of `t` in the slot is a session of `t₀` there, other than `k`
  have hothers : ∀ {k'}, t.slotOf k' = some p.slot → t₀.slotOf k' = some p.slot ∧ k ≠ k' := by
    intro k' h
    simp only [slotOf, Option.map_eq_some_iff] at h
    obtain ⟨p', hp', hs⟩ := h
    refine ⟨by simp [slotOf, hw.placement hp', hs], ?_⟩
    rintro rfl
    exact hk (Std.HashMap.mem_iff_isSome_getElem?.mpr (by simp [hp']))
  refine check_eq_none_iff.mpr ⟨c, by rwa [hc], h0, hlt, hk, by rwa [hc], by rwa [hc],
    by rwa [hc], ?_, ?_, ?_, ?_⟩
  · -- staff
    cases h : t.facultyAt[(c.facultyId, p.slot)]? with
    | none => rfl
    | some k' =>
      obtain ⟨hs', hf'⟩ := (hco.facultyAt_iff _ _ k').mp h
      obtain ⟨hs, hne⟩ := hothers hs'
      rw [hof] at hf'
      exact absurd (hx.faculty hslotOf hs (hfac.trans hf'.symm)) hne
  · -- room
    cases h : t.roomAt[(p.room, p.slot)]? with
    | none => rfl
    | some k' =>
      have hp' := (hco.roomAt_iff _ _ k').mp h
      obtain rfl := hx.room hp (hw.placement hp')
      exact absurd (Std.HashMap.mem_iff_isSome_getElem?.mpr (by simp [hp'])) hk
  · -- students
    intro st hst
    cases h : t.studentAt[(st, p.slot)]? with
    | none => rfl
    | some k' =>
      obtain ⟨hs', hst'⟩ := (hco.studentAt_iff st p.slot k').mp h
      obtain ⟨hs, hne⟩ := hothers hs'
      rw [hc] at hst hst'
      rw [h₀.indexed.course?_id hcourse] at hst
      exact absurd (hx.student hslotOf hs hst hst') hne
  · -- the staff member's load is below the one in `t₀`, which is within the cap
    rw [hc]
    intro hpos
    have hle := hco₀.facultyLoad_le c.facultyId hpos
    have hlt := placedCount_lt_of_within hw hp hk
      (q := fun k' _ ↦ t₀.facultyOf k'.course == c.facultyId) (by simp [hfac])
    rw [← hco₀.facultyLoad_eq] at hlt
    have hload := hco.facultyLoad_eq c.facultyId
    rw [hof] at hload
    rw [← hload] at hlt
    unfold facultyLoad at hlt hle
    omega

/-- Placements of a reachable `t₀` that a reachable timetable within it lacks are assigned back
one after another, each accepted; the result is still within `t₀`, and differs from the start
only at the sessions put back, each at its placement in `t₀`. -/
theorem Reachable.assignAll_within {t₀ : Timetable} (h₀ : t₀.Reachable) :
    ∀ (L : List (SessionKey × Placement)) {t : Timetable}, t.Reachable → t.catalog = t₀.catalog →
      t.Within t₀ → (L.map (·.1)).Nodup →
      (∀ kp ∈ L, t₀.placements[kp.1]? = some kp.2 ∧ kp.1 ∉ t.placements) →
      ∃ u, t.assignAll L = .ok u ∧ u.Reachable ∧ u.Within t₀ ∧ SameExcept (L.map (·.1)) t u ∧
        ∀ kp ∈ L, u.placements[kp.1]? = some kp.2
  | [], t, ht, _, hw, _, _ => ⟨t, rfl, ht, hw, .refl, by simp⟩
  | (k, p) :: L, t, ht, hc, hw, hnodup, hL => by
    obtain ⟨hp, hk⟩ := hL (k, p) (List.mem_cons_self ..)
    obtain ⟨hkL, hnodup'⟩ := List.nodup_cons.mp hnodup
    have ha : t.assign k p = .ok (t.place k p) :=
      assign_eq_ok.mpr ⟨ht.check_eq_none_of_within h₀ hc hw hp hk, rfl⟩
    have hw₁ : (t.place k p).Within t₀ := by
      refine ⟨fun {k' p'} h ↦ ?_⟩
      rw [place_placements, Std.HashMap.getElem?_insert] at h
      split at h
      · rename_i heq
        cases h
        rwa [← beq_iff_eq.mp heq]
      · exact hw.placement h
    -- the sessions still to put back are not placed by putting back `k`
    have hL₁ : ∀ kp ∈ L, t₀.placements[kp.1]? = some kp.2 ∧ kp.1 ∉ (t.place k p).placements := by
      intro kp hkp
      obtain ⟨hp', hk'⟩ := hL kp (List.mem_cons_of_mem _ hkp)
      have hne : k ≠ kp.1 := by
        rintro rfl
        exact hkL (List.mem_map.mpr ⟨kp, hkp, rfl⟩)
      refine ⟨hp', ?_⟩
      simp [Std.HashMap.mem_insert, hne, hk']
    obtain ⟨u, hu, hur, huw, hsame, hput⟩ :=
      assignAll_within h₀ L (ht.assign ha) hc hw₁ hnodup' hL₁
    refine ⟨u, by rw [assignAll_cons, ha]; exact hu, hur, huw, ?_, fun kp hkp ↦ ?_⟩
    · exact (sameExcept_place (List.mem_cons_self ..) t p).trans
        (hsame.mono fun _ h ↦ List.mem_cons_of_mem _ h)
    · rcases List.mem_cons.mp hkp with rfl | hkp
      · rw [hsame.placements k hkL]
        simp
      · exact hput kp hkp

end Timetable

end Timetabling
