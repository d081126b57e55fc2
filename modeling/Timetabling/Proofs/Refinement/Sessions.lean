import Timetabling.Proofs.Refinement.Feasible
import Timetabling.Proofs.Pipeline.Completion
import Timetabling.Proofs.Search.Domain

/-! # Refinement never loses a session

A refinement moves the sessions of its seed around and never takes one out for good: a mutation
or a crossover removes a session only to place it again, somewhere new or where it was. It never
marks a session either, so a reason can only disappear, when its session gets placed. Both facts
are move-stable (`Timetable.MoveStable`), so they hold of every timetable a refinement returns
(`Timetable.refine_never_loses_sessions`).

Validation then carries over from the seed as far as `assign` and validation agree: the seed's
missing sessions all have reasons, and so do the result's, which are fewer. What `assign` cannot
see is a course asking for the empty feature name: a move may take such a session into a room
whose record lacks the name, which validation reports. On a catalog whose rooms all list the name
whenever a course asks for it, a valid seed gives a valid result. -/

namespace Timetabling

namespace Timetable

/-- `t` places every session `t₀` places, and gives a session a reason only where `t₀` gave it
the same one. -/
structure Grows (t₀ t : Timetable) : Prop where
  placed : ∀ k ∈ t₀.placements, k ∈ t.placements
  reasons : ∀ k r, t.reason? k = some r → t₀.reason? k = some r

namespace Grows

variable {t₀ t t' : Timetable} {k : SessionKey} {p : Placement}

protected theorem refl (t : Timetable) : Grows t t := ⟨fun _ h ↦ h, fun _ _ h ↦ h⟩

/-- Placing a session keeps every placement and the reason of every other session. -/
theorem assign (h : Grows t₀ t) (ha : t.assign k p = .ok t') : Grows t₀ t' := by
  obtain ⟨-, rfl⟩ := assign_eq_ok.mp ha
  refine ⟨fun k' hk' ↦ ?_, fun k' r hr ↦ h.reasons k' r ?_⟩
  · rw [place_placements, Std.HashMap.mem_insert]
    exact .inr (h.placed k' hk')
  · simp only [reason?, place_reasons, Std.HashMap.getElem?_erase] at hr
    split at hr
    · cases hr
    · exact hr

/-- Moving a session places it again, so every placement stays, and it keeps the reason of every
other session. -/
theorem reassign (h : Grows t₀ t) (ha : (t.unassign k).2.assign k p = .ok t') : Grows t₀ t' := by
  obtain ⟨-, rfl⟩ := assign_eq_ok.mp ha
  refine ⟨fun k' hk' ↦ ?_, fun k' r hr ↦ h.reasons k' r ?_⟩
  · rw [place_placements, Std.HashMap.mem_insert, mem_unassign_placements]
    by_cases hkk : k = k'
    · exact .inl (by simp [hkk])
    · exact .inr ⟨hkk, h.placed k' hk'⟩
  · simp only [reason?, place_reasons, unassign_reasons, Std.HashMap.getElem?_erase] at hr
    split at hr
    · cases hr
    · exact hr

end Grows

/-- A refinement's timetables keep the seed's guarantees and grow from it. -/
theorem kept_grows_moveStable {t₀ : Timetable} (h₀ : t₀.Reachable) :
    MoveStable fun t ↦ Kept t₀ t ∧ Grows t₀ t :=
  ⟨fun h ↦ (Kept.moveStable h₀).reachable h.1,
    fun h ha ↦ ⟨h.1.assign ha, h.2.assign ha⟩, fun h ha ↦ ⟨h.1.reassign ha, h.2.reassign ha⟩⟩

/-- Refinement never loses a session: of a reachable seed, whatever the domain, the settings and
the watch, a refinement that ends with a result places every session the seed places, and a
session has a reason there only if it had the same reason in the seed. When the catalog's rooms
list the empty feature name whenever a course asks for it, a seed that passes validation gives a
result that passes it too. (The seed, a value, is left as it was.) -/
theorem refine_never_loses_sessions {σ : Type} {t₀ : Timetable} (h₀ : t₀.Reachable) (d : Domain)
    (cfg : RefineConfig) (w : RefineWatch σ) {t : Timetable} {stats : RefineStats}
    {w' : RefineWatch σ} (h : t₀.refine d cfg w = (.ok (t, stats), w')) :
    (∀ k ∈ t₀.placements, k ∈ t.placements) ∧
      (∀ k r, t.reason? k = some r → t₀.reason? k = some r) ∧
      (t₀.catalog.BlankFeaturesListed → t₀.validate = .ok () → t.validate = .ok ()) := by
  obtain ⟨hkept, hgrows⟩ := refine_stable (kept_grows_moveStable h₀) ⟨.refl t₀, .refl t₀⟩ d cfg w h
  refine ⟨hgrows.placed, hgrows.reasons, fun hblank hv ↦ ?_⟩
  -- the seed's missing sessions have reasons, and the result explains all the seed explains
  have hcat : t.catalog = t₀.catalog := hkept.edited.catalog_eq
  have ht : t.Reachable := hkept.edited.reachable h₀
  have hacc : t₀.Accounted := (h₀.validate_eq_ok_iff.mp hv).2
  rw [ht.validate_eq_ok_iff]
  exact ⟨fun k _ ↦ blankFeatureReport_eq_none ht.indexed (hcat ▸ hblank) k,
    hkept.explains.accounted hcat hacc⟩

/-- On the timetable of `singleRecords` with its first session placed, a refinement with a watch
that never stops ends with a result that keeps the session placed. -/
theorem refine_never_loses_sessions_singleRecords :
    ∃ e t₀, Catalog.build Domain.singleRecords = .ok e ∧
      (empty e).assign ⟨"c", 0⟩ ⟨"s", "r"⟩ = .ok t₀ ∧ t₀.Reachable ∧
      ∃ t stats w', t₀.refine (Domain.build e) { populationSize := 4, generations := 3 }
          (⟨(), fun x _ _ _ ↦ x, fun _ ↦ false⟩ : RefineWatch Unit) = (.ok (t, stats), w') ∧
        ((∀ k ∈ t₀.placements, k ∈ t.placements) ∧
          (∀ k r, t.reason? k = some r → t₀.reason? k = some r) ∧
          (t₀.catalog.BlankFeaturesListed → t₀.validate = .ok () → t.validate = .ok ())) := by
  cases hb : Catalog.build Domain.singleRecords with
  | error err =>
    simp [Domain.singleRecords, Catalog.build, Catalog.indexFaculty, Catalog.indexSlots,
      Catalog.indexRooms, Catalog.indexCourses, Catalog.courseStudents, stableSort, dedupStrings,
      sortStrings] at hb
    cases hb
  | ok e =>
    have hcheck : (empty e).check ⟨"c", 0⟩ ⟨"s", "r"⟩ = none := by
      simp [Domain.singleRecords, Catalog.build, Catalog.indexFaculty, Catalog.indexSlots,
        Catalog.indexRooms, Catalog.indexCourses, Catalog.courseStudents, stableSort, dedupStrings,
        sortStrings] at hb
      cases hb
      simp [check, empty, Catalog.course?, Catalog.room?, Catalog.slot?, Catalog.roomSuits,
        Catalog.facultyAvailable, Catalog.students, Catalog.enrollment, Catalog.faculty?,
        Catalog.nameSet]
    have ha := assign_eq_ok.mpr ⟨hcheck, rfl⟩
    have h₀ : Reachable _ := .assign (.empty (Catalog.indexed_of_build hb)) ha
    obtain ⟨t, stats, s, hr, -, -⟩ := refine_eq_ok (I := fun _ : Unit ↦ True) h₀ (Domain.build e)
      { populationSize := 4, generations := 3 } ⟨(), fun x _ _ _ ↦ x, fun _ ↦ false⟩
      (fun _ _ _ _ _ ↦ trivial) (fun _ _ ↦ rfl) trivial
    exact ⟨e, _, rfl, ha, h₀, t, stats, _, hr, refine_never_loses_sessions h₀ _ _ _ hr⟩

end Timetable

end Timetabling
