import Timetabling.Proofs.Timetable.Exclusive

/-! # Timetables edited from one another

Every search of the engine (greedy placement, merging, genetic refinement and repair) changes a
timetable only by placing sessions, removing them and marking them unscheduled. `Edited t t'`
says that `t'` comes from `t` that way; it keeps the catalog, and it keeps a timetable reachable,
so every invariant of reachable timetables holds of whatever the searches return.

Two facts make the searches' bookkeeping safe:

* a placement just removed can always be made again (`Coherent.check_unassign_self`), which is
  what lets a search undo a move by assigning the old placement back;
* marking every missing session that has no reason leaves none unexplained
  (`accounted_foldl_mark`). -/

namespace Timetabling

namespace Timetable

/-- `t'` is `t` after placing, removing and marking sessions, refused placements left out. -/
inductive Edited (t : Timetable) : Timetable → Prop
  | refl : Edited t t
  | assign {t₁ t₂ : Timetable} {k : SessionKey} {p : Placement} :
      Edited t t₁ → t₁.assign k p = .ok t₂ → Edited t t₂
  | unassign {t₁ : Timetable} (k : SessionKey) : Edited t t₁ → Edited t (t₁.unassign k).2
  | markUnscheduled {t₁ : Timetable} (k : SessionKey) (r : String) :
      Edited t t₁ → Edited t (t₁.markUnscheduled k r)

namespace Edited

variable {t t₁ t₂ : Timetable}

theorem trans (h₁ : Edited t t₁) (h₂ : Edited t₁ t₂) : Edited t t₂ := by
  induction h₂ with
  | refl => exact h₁
  | assign _ ha ih => exact ih.assign ha
  | unassign k _ ih => exact ih.unassign k
  | markUnscheduled k r _ ih => exact ih.markUnscheduled k r

/-- Editing keeps the catalog. -/
theorem catalog_eq (h : Edited t t₁) : t₁.catalog = t.catalog := by
  induction h with
  | refl => rfl
  | assign _ ha ih =>
    obtain ⟨-, rfl⟩ := assign_eq_ok.mp ha
    exact ih
  | unassign k _ ih => rwa [unassign_catalog]
  | markUnscheduled k r _ ih =>
    unfold Timetable.markUnscheduled
    split <;> exact ih

/-- Editing a reachable timetable gives a reachable one. -/
theorem reachable (h : Edited t t₁) (ht : t.Reachable) : t₁.Reachable := by
  induction h with
  | refl => exact ht
  | assign _ ha ih => exact ih.assign ha
  | unassign k _ ih => exact ih.unassign k
  | markUnscheduled k r _ ih => exact ih.markUnscheduled k r

theorem of_assign {k : SessionKey} {p : Placement} (h : t.assign k p = .ok t₁) : Edited t t₁ :=
  refl.assign h

/-- Trying a placement and keeping the timetable when it is refused is an edit. -/
theorem assignOr (k : SessionKey) (p : Placement) :
    Edited t (match t.assign k p with
      | .ok t' => t'
      | .error _ => t) := by
  cases ha : t.assign k p with
  | ok t' => exact of_assign ha
  | error c => exact refl

end Edited

/-! ## Undoing a removal -/

/-- A placement just removed from a coherent timetable is accepted again: nothing else holds its
staff member, room or students in that slot, and the staff member's load is one lower. -/
theorem Coherent.check_unassign_self {t : Timetable} (ht : t.Coherent) (he : t.catalog.Indexed)
    {k : SessionKey} {p : Placement} (hp : t.placements[k]? = some p) :
    (t.unassign k).2.check k p = none := by
  obtain ⟨c, hc, h0, hlt, hslot, hroom, havail⟩ := ht.admissible hp
  have hx := ht.exclusive
  have hfac : t.facultyOf k.course = c.facultyId := by simp [facultyOf, hc]
  have hslotOf : t.slotOf k = some p.slot := by simp [slotOf, hp]
  -- another session in the freed slot would share it with `k`
  have hothers : ∀ {k'}, (t.unassign k).2.slotOf k' = some p.slot →
      t.slotOf k' = some p.slot ∧ k ≠ k' := by
    intro k' h
    rw [slotOf_unassign hp] at h
    split at h
    · cases h
    · rename_i hne
      exact ⟨h, hne⟩
  refine check_eq_none_iff.mpr ⟨c, ?_⟩
  refine ⟨by rwa [unassign_catalog], h0, hlt, ?_, by rwa [unassign_catalog],
    by rwa [unassign_catalog], by rwa [unassign_catalog], ?_, ?_, ?_, ?_⟩
  · rw [unassign_of_getElem? hp]
    simp [Std.HashMap.mem_erase]
  · -- staff
    cases h : (t.unassign k).2.facultyAt[(c.facultyId, p.slot)]? with
    | none => rfl
    | some k' =>
      obtain ⟨hs', hf'⟩ := (ht.unassign_facultyAt_iff hp _ _ k').mp h
      obtain ⟨hs, hne⟩ := hothers hs'
      rw [facultyOf_of_catalog unassign_catalog] at hf'
      exact absurd (hx.faculty hslotOf hs (hfac.trans hf'.symm)) hne
  · -- room
    cases h : (t.unassign k).2.roomAt[(p.room, p.slot)]? with
    | none => rfl
    | some k' =>
      have hp' := (ht.unassign_roomAt_iff hp _ _ k').mp h
      rw [unassign_of_getElem? hp] at hp'
      simp only [Std.HashMap.getElem?_erase] at hp'
      split at hp'
      · cases hp'
      · rename_i hne
        exact absurd (hx.room hp hp') (by simpa using hne)
  · -- students
    intro st hst
    cases h : (t.unassign k).2.studentAt[(st, p.slot)]? with
    | none => rfl
    | some k' =>
      obtain ⟨hs', hst'⟩ := (ht.unassign_studentAt_iff hp _ _ k').mp h
      obtain ⟨hs, hne⟩ := hothers hs'
      rw [unassign_catalog] at hst hst'
      rw [he.course?_id hc] at hst
      exact absurd (hx.student hslotOf hs hst hst') hne
  · -- the load drops by one, so it is below the cap again
    rw [unassign_catalog]
    intro hpos
    have hle := ht.facultyLoad_le c.facultyId hpos
    have hdrop := facultyLoad_unassign hp c.facultyId
    rw [if_pos hfac] at hdrop
    unfold facultyLoad at hdrop hle
    omega

/-! ## Accounting for missing sessions -/

/-- Every session missing from a timetable has a recorded reason. -/
def Accounted (t : Timetable) : Prop :=
  ∀ k ∈ t.missing, (t.reason? k).isSome

@[simp] theorem markUnscheduled_placements (t : Timetable) (k : SessionKey) (r : String) :
    (t.markUnscheduled k r).placements = t.placements := by
  unfold markUnscheduled
  split <;> rfl

@[simp] theorem markUnscheduled_catalog (t : Timetable) (k : SessionKey) (r : String) :
    (t.markUnscheduled k r).catalog = t.catalog := by
  unfold markUnscheduled
  split <;> rfl

/-- Marking gives an unplaced session its reason and keeps every other reason. -/
theorem reason?_markUnscheduled (t : Timetable) (k : SessionKey) (r : String) (k' : SessionKey) :
    (t.markUnscheduled k r).reason? k' =
      if k ∉ t.placements ∧ k = k' then some r else t.reason? k' := by
  unfold markUnscheduled reason?
  by_cases hk : k ∈ t.placements
  · simp [hk]
  · by_cases heq : k = k'
    · subst heq
      simp [hk]
    · simp [hk, heq, Std.HashMap.getElem?_insert]

/-- The missing sessions depend only on the catalog and the placements. -/
theorem missing_congr {t t' : Timetable} (hc : t'.catalog = t.catalog)
    (hp : t'.placements = t.placements) : t'.missing = t.missing := by
  unfold missing
  rw [hc, hp]

/-- Marking each of some sessions that has no reason yet, with a reason read off the timetable so
far, is an edit that places nothing; afterwards each of those sessions that is not placed has a
reason, and every earlier reason is kept. -/
theorem foldl_mark (why : Timetable → SessionKey → String) :
    ∀ (ks : List SessionKey) (t : Timetable),
      Edited t (ks.foldl (fun t k ↦ if (t.reason? k).isSome then t else t.markUnscheduled k (why t k)) t) ∧
      (ks.foldl (fun t k ↦ if (t.reason? k).isSome then t else t.markUnscheduled k (why t k)) t).placements =
        t.placements ∧
      ∀ k, ((t.reason? k).isSome ∨ (k ∈ ks ∧ k ∉ t.placements)) →
        ((ks.foldl (fun t k ↦ if (t.reason? k).isSome then t else t.markUnscheduled k (why t k)) t).reason? k).isSome
  | [], t => ⟨.refl, rfl, fun k h ↦ by simpa using h⟩
  | k :: ks, t => by
    simp only [List.foldl_cons]
    -- one step marks `k` unless it already has a reason, then the rest of the list is marked
    have hstep : Edited t (if (t.reason? k).isSome then t else t.markUnscheduled k (why t k)) ∧
        (if (t.reason? k).isSome then t else t.markUnscheduled k (why t k)).placements = t.placements ∧
        ∀ k', ((t.reason? k').isSome ∨ (k' = k ∧ k ∉ t.placements)) →
          ((if (t.reason? k).isSome then t else t.markUnscheduled k (why t k)).reason? k').isSome := by
      split
      · rename_i hr
        refine ⟨.refl, rfl, fun k' h ↦ ?_⟩
        rcases h with h | ⟨rfl, -⟩
        · exact h
        · exact hr
      · refine ⟨Edited.refl.markUnscheduled k _, markUnscheduled_placements .., fun k' h ↦ ?_⟩
        rw [reason?_markUnscheduled]
        rcases h with h | ⟨rfl, hk⟩
        · split <;> simp_all
        · simp [hk]
    obtain ⟨hed, hpl, hre⟩ := hstep
    obtain ⟨hed', hpl', hre'⟩ := foldl_mark why ks _
    refine ⟨hed.trans hed', hpl'.trans hpl, fun k' h ↦ hre' k' ?_⟩
    rw [hpl]
    rcases h with h | ⟨hmem, hk'⟩
    · exact .inl (hre k' (.inl h))
    · rcases List.mem_cons.mp hmem with rfl | hmem
      · exact .inl (hre k' (.inr ⟨rfl, hk'⟩))
      · exact .inr ⟨hmem, hk'⟩

/-- Marking every missing session without a reason accounts for all of them. -/
theorem accounted_foldl_mark (why : Timetable → SessionKey → String) (t : Timetable) :
    (t.missing.foldl (fun t k ↦ if (t.reason? k).isSome then t else t.markUnscheduled k (why t k)) t).Accounted := by
  obtain ⟨hed, hpl, hre⟩ := foldl_mark why t.missing t
  intro k hk
  rw [missing_congr hed.catalog_eq hpl] at hk
  refine hre k (.inr ⟨hk, ?_⟩)
  rw [missing_eq_filter, List.mem_filter] at hk
  simpa [Std.HashMap.contains_iff_mem] using hk.2

/-- An edit followed by marking every missing session without a reason is an edit that accounts
for every session. -/
theorem Edited.foldl_mark_missing {t₀ t : Timetable} (why : Timetable → SessionKey → String)
    (h : Edited t₀ t) :
    Edited t₀ (t.missing.foldl (fun t k ↦ if (t.reason? k).isSome then t
      else t.markUnscheduled k (why t k)) t) ∧
    (t.missing.foldl (fun t k ↦ if (t.reason? k).isSome then t
      else t.markUnscheduled k (why t k)) t).Accounted :=
  ⟨h.trans (foldl_mark why t.missing t).1, accounted_foldl_mark why t⟩

/-! ## Sessions left unexplained -/

/-- `t'` explains every session `t` explains: a session neither placed in `t'` nor given a reason
there was neither placed in `t` nor given a reason there. -/
def Explains (t t' : Timetable) : Prop :=
  ∀ k, k ∉ t'.placements → t'.reason? k = none → k ∉ t.placements ∧ t.reason? k = none

@[simp] theorem unassign_reasons (t : Timetable) (k : SessionKey) :
    (t.unassign k).2.reasons = t.reasons := by
  unfold unassign
  split <;> rfl

theorem mem_unassign_placements (t : Timetable) (k k' : SessionKey) :
    k' ∈ (t.unassign k).2.placements ↔ k ≠ k' ∧ k' ∈ t.placements := by
  cases hp : t.placements[k]? with
  | none =>
    rw [unassign_of_getElem?_eq_none hp]
    refine ⟨fun h ↦ ⟨?_, h⟩, fun h ↦ h.2⟩
    rintro rfl
    simp [Std.HashMap.mem_iff_isSome_getElem?, hp] at h
  | some p =>
    rw [unassign_of_getElem? hp]
    simp [Std.HashMap.mem_erase]

namespace Explains

variable {t t₁ t₂ : Timetable}

protected theorem refl (t : Timetable) : Explains t t := fun _ h₁ h₂ ↦ ⟨h₁, h₂⟩

protected theorem trans (h₁ : Explains t t₁) (h₂ : Explains t₁ t₂) : Explains t t₂ :=
  fun k hk hr ↦ h₁ k (h₂ k hk hr).1 (h₂ k hk hr).2

/-- Over the same catalog, a timetable that explains an accounted one is accounted. -/
theorem accounted (h : Explains t t₁) (hc : t₁.catalog = t.catalog) (ha : t.Accounted) :
    t₁.Accounted := by
  intro k hk
  rw [missing_eq_filter, List.mem_filter, hc] at hk
  have hk' : k ∉ t₁.placements := by simpa [Std.HashMap.contains_iff_mem] using hk.2
  cases hr : t₁.reason? k with
  | some r => rfl
  | none =>
    obtain ⟨hk₀, hr₀⟩ := h k hk' hr
    have hmiss : k ∈ t.missing := by
      rw [missing_eq_filter, List.mem_filter]
      exact ⟨hk.1, by simpa [Std.HashMap.contains_iff_mem] using hk₀⟩
    simpa [hr₀] using ha k hmiss

end Explains

/-- Placing a session explains everything that was explained. -/
theorem explains_assign {t t' : Timetable} {k : SessionKey} {p : Placement}
    (h : t.assign k p = .ok t') : Explains t t' := by
  obtain ⟨-, rfl⟩ := assign_eq_ok.mp h
  intro k' hk hr
  have hne : k ≠ k' := by
    rintro rfl
    simp at hk
  simp only [place_placements, Std.HashMap.mem_insert, beq_iff_eq, hne, false_or] at hk
  simp only [reason?, place_reasons, Std.HashMap.getElem?_erase, beq_iff_eq, hne] at hr
  exact ⟨hk, by simpa [reason?] using hr⟩

/-- Marking a session explains everything that was explained. -/
theorem explains_markUnscheduled (t : Timetable) (k : SessionKey) (r : String) :
    Explains t (t.markUnscheduled k r) := by
  intro k' hk hr
  rw [markUnscheduled_placements] at hk
  rw [reason?_markUnscheduled] at hr
  split at hr
  · cases hr
  · exact ⟨hk, hr⟩

/-- Removing a session and placing it again, anywhere, explains everything that was explained. -/
theorem explains_reassign {t t' : Timetable} {k : SessionKey} {p : Placement}
    (h : (t.unassign k).2.assign k p = .ok t') : Explains t t' := by
  obtain ⟨-, rfl⟩ := assign_eq_ok.mp h
  intro k' hk hr
  have hne : k ≠ k' := by
    rintro rfl
    simp at hk
  simp only [place_placements, Std.HashMap.mem_insert, beq_iff_eq, hne, false_or,
    mem_unassign_placements, ne_eq, not_false_eq_true, true_and] at hk
  simp only [reason?, place_reasons, unassign_reasons, Std.HashMap.getElem?_erase, beq_iff_eq,
    hne] at hr
  exact ⟨hk, by simpa [reason?] using hr⟩

end Timetable

end Timetabling
