import Timetabling.Incremental
import Timetabling.Proofs.Timetable.Rebind
import Timetabling.Proofs.Search.Merge
import Timetabling.Proofs.Search.Domain

/-! # Adding and removing a course

A course leaves a finished timetable by moving the timetable onto its catalog without the course,
and joins it by moving the timetable onto its catalog with the course and placing the new
sessions greedily. Both moves keep every other course (`Catalog.withoutCourse_eq_ok`,
`Catalog.keeps_of_withCourse`), so they keep every other placement and reason
(`Timetable.Reachable.rebind_eq_ok`), and greedy placement touches only the sessions it is
given (`Timetable.greedy_sameExcept`). So removing a course keeps exactly the rest, adding one
keeps every placement and accounts for each new session, and removing what was added gives the
timetable back (`Timetable.course_changes_keep_the_rest`). -/

namespace Timetabling

namespace Timetable

/-! ## Sessions of unknown courses -/

section Unknown

variable {t : Timetable}

/-- A reachable timetable places only sessions of courses its catalog has. -/
theorem Reachable.course?_isSome_of_mem (ht : t.Reachable) {k : SessionKey}
    (hk : k ∈ t.placements) : (t.catalog.course? k.course).isSome := by
  obtain ⟨p, hp⟩ := Option.isSome_iff_exists.mp (Std.HashMap.mem_iff_isSome_getElem?.mp hk)
  obtain ⟨c, hc, -⟩ := ht.coherent.admissible hp
  simp [hc]

theorem Reachable.lookup_eq_none (ht : t.Reachable) {k : SessionKey}
    (hk : t.catalog.course? k.course = none) : t.lookup k = none := by
  rw [lookup, ← Option.not_isSome_iff_eq_none, ← Std.HashMap.mem_iff_isSome_getElem?]
  intro hmem
  simpa [hk] using ht.course?_isSome_of_mem hmem

end Unknown

/-! ## Removing a course -/

variable {d : Dataset} {e : Catalog} {t : Timetable}

/-- Removing a course of the catalog is moving the timetable onto the catalog without it. -/
theorem removeCourse_eq_ok_of {x : String}
    (hx : (t.catalog.course? x).isSome) {reduced : Catalog} {out : Timetable}
    (hw : t.catalog.withoutCourse x = .ok reduced) (hr : t.rebind reduced = .ok out) :
    t.removeCourse x = .ok out := by
  have hx' : (t.catalog.course? x).isNone = false := by simpa using hx
  simp [removeCourse, hx', hw, hr, pure, Except.pure]

/-- Removing a course of a reachable timetable over a built catalog, whose every reason names a
course of the catalog, succeeds and keeps exactly the placements and reasons of the other
courses. -/
theorem Reachable.removeCourse_eq_ok (hb : Catalog.build d = .ok e) (ht : t.Reachable)
    (hcat : t.catalog = e) (hreasons : ∀ k ∈ t.reasons, (e.course? k.course).isSome) {x : String}
    (hx : (e.course? x).isSome) :
    ∃ out, t.removeCourse x = .ok out ∧ out.Reachable ∧
      (∀ k, out.lookup k = if k.course = x then none else t.lookup k) ∧
      (∀ k, out.reason? k = if k.course = x then none else t.reason? k) := by
  obtain ⟨e', hw, hkeeps, hnone⟩ := Catalog.withoutCourse_eq_ok hb x
  have he' : e'.Indexed := Catalog.indexed_of_build hw
  -- the new catalog has a course exactly when it is another course of the old one
  have hnew : ∀ id, (e'.course? id).isSome ↔ id ≠ x ∧ (e.course? id).isSome := by
    intro id
    by_cases hid : id = x
    · subst hid
      simp [hnone]
    · simp [hid, hkeeps.course? hid]
  obtain ⟨out, hreb, hout, -, hlook, hreason⟩ := ht.rebind_eq_ok he' (hcat ▸ hkeeps)
    fun k _ hk ↦ ((hnew k.course).mp hk).1
  refine ⟨out, removeCourse_eq_ok_of (hcat ▸ hx) (hcat ▸ hw) hreb, hout, fun k ↦ ?_, fun k ↦ ?_⟩
  · rw [hlook]
    by_cases hkx : k.course = x
    · simp [hkx, hnone]
    · by_cases hc : (e.course? k.course).isSome
      · rw [if_pos ((hnew _).mpr ⟨hkx, hc⟩), if_neg hkx]
      · -- a session of a course the catalog lacks is not placed
        rw [if_neg fun h ↦ hc ((hnew _).mp h).2, if_neg hkx]
        exact (ht.lookup_eq_none (by simpa [hcat] using hc)).symm
  · rw [hreason]
    by_cases hkx : k.course = x
    · simp [hkx, hnone]
    · by_cases hc : (e.course? k.course).isSome
      · rw [if_pos ((hnew _).mpr ⟨hkx, hc⟩), if_neg hkx]
      · -- a session of a course the catalog lacks has no reason
        rw [if_neg fun h ↦ hc ((hnew _).mp h).2, if_neg hkx]
        exact (Std.HashMap.getElem?_eq_none fun h ↦ hc (hreasons k h)).symm

/-! ## Adding a course -/

/-- The sessions of a course, by number. -/
def courseSessions (c : Course) : List SessionKey :=
  (List.range c.sessions.toNat).map fun (i : Nat) => (⟨c.id, i⟩ : SessionKey)

/-- An added course went through every step: the request was not stopped, the course is new,
the catalog takes it, the timetable moves onto the new catalog, and the timetable with the new
sessions placed greedily validates. -/
theorem addCourse_eq_ok {c : Course} {stopped : Bool} {out : Timetable}
    (h : t.addCourse c stopped = .ok out) :
    stopped = false ∧ t.catalog.course? c.id = none ∧
      ∃ e' r, t.catalog.withCourse c = .ok e' ∧ t.rebind e' = .ok r ∧
        out = (r.greedy (Domain.build e') (courseSessions c)).1 ∧ out.validate = .ok () := by
  unfold addCourse at h
  split at h
  · cases h
  rename_i hstop
  split at h
  · cases h
  rename_i hnew
  split at h
  · cases h
  rename_i e' hw
  split at h
  · cases h
  rename_i r hr
  dsimp only at h
  split at h
  · cases h
  rename_i hv
  cases h
  exact ⟨by simpa using hstop, by simpa using hnew, e', r, hw, hr, rfl, hv⟩

/-- Adding a course to a reachable timetable over a built catalog, whose every reason names a
course of the catalog, keeps every placement, places or marks every session of the new course,
and removing the course again gives back exactly the placements and reasons of the timetable.
(The timetable itself, a value, is left as it was.) -/
theorem Reachable.addCourse_spec (hb : Catalog.build d = .ok e) (ht : t.Reachable)
    (hcat : t.catalog = e) (hreasons : ∀ k ∈ t.reasons, (e.course? k.course).isSome)
    {c : Course} {stopped : Bool} {out : Timetable} (h : t.addCourse c stopped = .ok out) :
    (∀ k p, t.lookup k = some p → out.lookup k = some p) ∧
      (∀ i : Int, 0 ≤ i → i < c.sessions →
        (⟨c.id, i⟩ : SessionKey) ∈ out.placements ∨ (out.reason? ⟨c.id, i⟩).isSome) ∧
      ∃ back, out.removeCourse c.id = .ok back ∧ (∀ k, back.lookup k = t.lookup k) ∧
        ∀ k, back.reason? k = t.reason? k := by
  obtain ⟨-, hfresh, e', r, hw, hr, rfl, hv⟩ := addCourse_eq_ok h
  rw [hcat] at hfresh hw
  obtain ⟨hkeeps, hmem⟩ := Catalog.keeps_of_withCourse hb hw
  have hb' : Catalog.build _ = .ok e' := hw
  have he' : e'.Indexed := Catalog.indexed_of_build hb'
  -- the new catalog has the new course, and every old course of another id
  have hnew : ∀ id, (e'.course? id).isSome ↔ id = c.id ∨ (e.course? id).isSome := by
    intro id
    by_cases hid : id = c.id
    · subst hid
      simp [he'.course?_self hmem]
    · simp [hid, hkeeps.course? hid]
  obtain ⟨r', hreb, hrr, hrc, hlook, hreason⟩ := ht.rebind_eq_ok he' (hcat ▸ hkeeps)
    fun k hk _ hkc ↦ by
      -- a placed session's course is one of the old catalog, so not the new one
      have hc := ht.course?_isSome_of_mem hk
      rw [hcat, hkc, hfresh] at hc
      cases hc
  rw [hr] at hreb
  cases hreb
  set out := (r.greedy (Domain.build e') (courseSessions c)).1 with hout
  have hsame := greedy_sameExcept r (Domain.build e') (courseSessions c)
  have houtr : out.Reachable := (greedy_edited r _ _).reachable hrr
  have houtc : out.catalog = e' := (greedy_edited r _ _).catalog_eq.trans hrc
  -- the timetable's sessions are of old courses, which the new catalog keeps
  have hold : ∀ k, (t.lookup k).isSome ∨ (t.reason? k).isSome → k.course ≠ c.id ∧
      (e'.course? k.course).isSome := by
    intro k hk
    have hc : (e.course? k.course).isSome := by
      rcases hk with hk | hk
      · exact hcat ▸ ht.course?_isSome_of_mem (Std.HashMap.mem_iff_isSome_getElem?.mpr hk)
      · exact hreasons k (Std.HashMap.mem_iff_isSome_getElem?.mpr hk)
    refine ⟨fun h ↦ by simp [h, hfresh] at hc, (hnew _).mpr (.inr hc)⟩
  have hnotin : ∀ k, k.course ≠ c.id → k ∉ courseSessions c := by
    intro k hk hmem'
    obtain ⟨i, -, rfl⟩ := List.mem_map.mp hmem'
    exact hk rfl
  refine ⟨fun k p hp ↦ ?_, fun i hi hlt ↦ ?_, ?_⟩
  · -- kept by the move, then by greedy placement
    obtain ⟨-, hc⟩ := hold k (.inl (by simp [hp]))
    have hrk : r.lookup k = some p := by rw [hlook, if_pos hc, hp]
    exact (greedy_grows r _ _).2 k p hrk
  · -- the validated timetable gives every missing session a reason
    have hacc := ((houtr.validate_eq_ok_iff).mp hv).2
    by_cases hpl : (⟨c.id, i⟩ : SessionKey) ∈ out.placements
    · exact .inl hpl
    · refine .inr (hacc _ ?_)
      rw [missing_eq_filter, List.mem_filter, houtc, Catalog.mem_sessionKeys]
      exact ⟨⟨c, hmem, rfl, hi, hlt⟩, by simpa using hpl⟩
  · -- removing the course again: every reason of the result names a course of the new catalog
    have hreasons' : ∀ k ∈ out.reasons, (e'.course? k.course).isSome := by
      intro k hk
      by_cases hkc : k.course = c.id
      · rw [hkc]
        exact (hnew _).mpr (.inl rfl)
      · have hr' : (out.reason? k).isSome := Std.HashMap.mem_iff_isSome_getElem?.mp hk
        rw [hsame.reasons k (hnotin k hkc), hreason] at hr'
        split at hr'
        · rename_i hc'
          exact hc'
        · simp at hr'
    obtain ⟨back, hback, -, hblook, hbreason⟩ := houtr.removeCourse_eq_ok hb' houtc hreasons'
      ((hnew _).mpr (.inl rfl))
    refine ⟨back, hback, fun k ↦ ?_, fun k ↦ ?_⟩
    · rw [hblook]
      split
      · rename_i hkc
        cases ht' : t.lookup k with
        | none => rfl
        | some p => exact absurd hkc (hold k (.inl (by simp [ht']))).1
      · rename_i hkc
        have hl : out.lookup k = r.lookup k := hsame.placements k (hnotin k hkc)
        rw [hl, hlook]
        split
        · rfl
        · rename_i hc'
          cases ht' : t.lookup k with
          | none => rfl
          | some p => exact absurd (hold k (.inl (by simp [ht']))).2 hc'
    · rw [hbreason]
      split
      · rename_i hkc
        cases ht' : t.reason? k with
        | none => rfl
        | some p => exact absurd hkc (hold k (.inr (by simp [ht']))).1
      · rename_i hkc
        rw [hsame.reasons k (hnotin k hkc), hreason]
        split
        · rfl
        · rename_i hc'
          cases ht' : t.reason? k with
          | none => rfl
          | some p => exact absurd (hold k (.inr (by simp [ht']))).2 hc'

/-- Courses come and go without disturbing the rest. Over a built catalog, take a reachable
timetable whose every reason names a course of the catalog. Removing a course of the catalog
succeeds and keeps exactly the placements and reasons of the other courses. Adding a course, when
it succeeds, keeps every placement, places or marks every session of the new course, and removing
the course again gives back exactly the placements and reasons of the timetable. (The timetable
itself, a value, is left as it was.) -/
theorem course_changes_keep_the_rest (hb : Catalog.build d = .ok e) (ht : t.Reachable)
    (hcat : t.catalog = e) (hreasons : ∀ k ∈ t.reasons, (e.course? k.course).isSome) :
    (∀ x, (e.course? x).isSome → ∃ out, t.removeCourse x = .ok out ∧
      (∀ k, out.lookup k = if k.course = x then none else t.lookup k) ∧
      ∀ k, out.reason? k = if k.course = x then none else t.reason? k) ∧
    ∀ (c : Course) (stopped : Bool) (out : Timetable), t.addCourse c stopped = .ok out →
      (∀ k p, t.lookup k = some p → out.lookup k = some p) ∧
      (∀ i : Int, 0 ≤ i → i < c.sessions →
        (⟨c.id, i⟩ : SessionKey) ∈ out.placements ∨ (out.reason? ⟨c.id, i⟩).isSome) ∧
      ∃ back, out.removeCourse c.id = .ok back ∧ (∀ k, back.lookup k = t.lookup k) ∧
        ∀ k, back.reason? k = t.reason? k := by
  refine ⟨fun x hx ↦ ?_, fun c stopped out h ↦ ht.addCourse_spec hb hcat hreasons h⟩
  obtain ⟨out, hout, -, hlook, hreason⟩ := ht.removeCourse_eq_ok hb hcat hreasons hx
  exact ⟨out, hout, hlook, hreason⟩

/-- Over the catalog of `singleRecords`, the timetable with the first session placed and the
second marked has courses added and removed without disturbing the rest. -/
theorem course_changes_keep_the_rest_singleRecords :
    ∃ e, Catalog.build Domain.singleRecords = .ok e ∧
      let t := ((empty e).place ⟨"c", 0⟩ ⟨"s", "r"⟩).markUnscheduled ⟨"c", 1⟩ "full"
      t.Reachable ∧ t.catalog = e ∧ t.lookup ⟨"c", 0⟩ = some ⟨"s", "r"⟩ ∧
      t.reason? ⟨"c", 1⟩ = some "full" ∧
      (∀ k ∈ t.reasons, (e.course? k.course).isSome) ∧
      ((∀ x, (e.course? x).isSome → ∃ out, t.removeCourse x = .ok out ∧
        (∀ k, out.lookup k = if k.course = x then none else t.lookup k) ∧
        ∀ k, out.reason? k = if k.course = x then none else t.reason? k) ∧
      ∀ (c : Course) (stopped : Bool) (out : Timetable), t.addCourse c stopped = .ok out →
        (∀ k p, t.lookup k = some p → out.lookup k = some p) ∧
        (∀ i : Int, 0 ≤ i → i < c.sessions →
          (⟨c.id, i⟩ : SessionKey) ∈ out.placements ∨ (out.reason? ⟨c.id, i⟩).isSome) ∧
        ∃ back, out.removeCourse c.id = .ok back ∧ (∀ k, back.lookup k = t.lookup k) ∧
          ∀ k, back.reason? k = t.reason? k) := by
  obtain ⟨e, hb, hcourse, hcheck⟩ := Domain.build_singleRecords
  have ht : (((empty e).place ⟨"c", 0⟩ ⟨"s", "r"⟩).markUnscheduled ⟨"c", 1⟩ "full").Reachable :=
    .markUnscheduled _ _ (.assign (.empty (Catalog.indexed_of_build hb)) (assign_eq_ok.mpr ⟨hcheck, rfl⟩))
  have hcat : (((empty e).place ⟨"c", 0⟩ ⟨"s", "r"⟩).markUnscheduled ⟨"c", 1⟩ "full").catalog = e := by
    simp [markUnscheduled, place, empty]
  -- the second session is not placed, so it is marked
  have hreasons : (((empty e).place ⟨"c", 0⟩ ⟨"s", "r"⟩).markUnscheduled ⟨"c", 1⟩ "full").reasons =
      (∅ : Std.HashMap SessionKey String).insert ⟨"c", 1⟩ "full" := by
    simp [markUnscheduled, place, empty]
  refine ⟨e, hb, ht, hcat, ?_, ?_, ?_, course_changes_keep_the_rest hb ht hcat ?_⟩
  · simp [markUnscheduled, lookup, place]
  · simp [reason?, hreasons]
  all_goals
    intro k hk
    rw [hreasons, Std.HashMap.mem_insert, beq_iff_eq] at hk
    rcases hk with rfl | hk
    · exact hcourse
    · simp at hk

end Timetable

end Timetabling
