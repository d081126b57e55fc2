import Timetabling.Proofs.Catalog.Rebuild
import Timetabling.Proofs.Timetable.Restore
import Timetabling.Proofs.Validation.Reports

/-! # Moving a timetable onto a catalog that keeps its courses

`Timetable.rebind` assigns a timetable's placements again, one at a time in key order, on the
empty timetable of another catalog, and then copies the reasons. When the new catalog keeps the
old one's slots, rooms and staff and the courses of the kept ids (`Catalog.Keeps`), it judges a
placement of a kept course as the old one does (`Timetable.check_withCatalog`). The placements of
the kept courses stood together in the old timetable, so they are accepted again in any order
(`Timetable.Reachable.assignAll_within`), and the result has exactly the placements and reasons
of the kept courses (`Timetable.Reachable.rebind_eq_ok`). -/

namespace Timetabling

namespace Timetable

/-! ## One timetable over two catalogs -/

section Moved

variable {t : Timetable} {e' : Catalog} {keep : String → Prop}

/-- Over a catalog that keeps its course, a placement of a session is judged as over the old
catalog. -/
theorem check_withCatalog (he : t.catalog.Indexed) (hk : t.catalog.Keeps e' keep)
    {k : SessionKey} (hkey : keep k.course) (p : Placement) :
    ({ t with catalog := e' } : Timetable).check k p = t.check k p := by
  unfold check
  simp only
  rw [hk.course? hkey]
  cases hc : t.catalog.course? k.course with
  | none => rfl
  | some c =>
    -- the course's students and features are read under its own id, which is kept
    have hid : c.id = k.course := he.course?_id hc
    have hkc : keep c.id := hid ▸ hkey
    have hcs : (t.catalog.course? c.id).isSome := by rw [hid, hc]; rfl
    simp only [hk.slot?, hk.room?, hk.roomSuits hkc hcs, hk.facultyAvailable, hk.students hkc hcs,
      hk.faculty?]

/-- Placing a session of a kept course enters it in the indexes as over the old catalog. -/
theorem place_withCatalog (hk : t.catalog.Keeps e' keep) {k : SessionKey} (hkey : keep k.course)
    (hc : (t.catalog.course? k.course).isSome) (p : Placement) :
    ({ t with catalog := e' } : Timetable).place k p = { t.place k p with catalog := e' } := by
  unfold place facultyOf
  simp only [hk.course? hkey, hk.students hkey hc]

theorem assign_withCatalog (he : t.catalog.Indexed) (hk : t.catalog.Keeps e' keep)
    {k : SessionKey} (hkey : keep k.course) (p : Placement) :
    ({ t with catalog := e' } : Timetable).assign k p =
      (t.assign k p).map fun u ↦ { u with catalog := e' } := by
  unfold assign
  rw [check_withCatalog he hk hkey]
  cases hc : t.check k p with
  | some c => rfl
  | none =>
    obtain ⟨c, hf⟩ := check_eq_none_iff.mp hc
    rw [place_withCatalog hk hkey (by rw [hf.course]; rfl)]
    rfl

/-- The placement a timetable offers for a session moved onto catalog `e'`: its own, when `e'`
has the session's course. -/
def rebindOffer (t : Timetable) (e' : Catalog) (k : SessionKey) : Option (SessionKey × Placement) :=
  if (e'.course? k.course).isSome then t.placements[k]?.map (k, ·) else none

/-- Assigning sessions again over a catalog that keeps the courses of the placed sessions it has
is assigning over the old catalog the placements of the sessions whose course the new one has. -/
theorem foldlM_rebindStep (he : t.catalog.Indexed) (hk : t.catalog.Keeps e' keep)
    (hnew : ∀ k ∈ t.placements, (e'.course? k.course).isSome → keep k.course) :
    ∀ (ks : List SessionKey) (u : Timetable), u.catalog = t.catalog →
      ks.foldlM (t.rebindStep e') { u with catalog := e' } =
        (u.assignAll (ks.filterMap (t.rebindOffer e'))).map fun v ↦ { v with catalog := e' }
  | [], u, _ => rfl
  | k :: ks, u, hu => by
    rw [List.foldlM_cons, List.filterMap_cons]
    by_cases hc : (e'.course? k.course).isSome
    · obtain ⟨c, hc'⟩ := Option.isSome_iff_exists.mp hc
      cases hp : t.placements[k]? with
      | none =>
        have hstep : t.rebindStep e' { u with catalog := e' } k = .ok { u with catalog := e' } := by
          simp [rebindStep, hp, pure, Except.pure]
        rw [hstep, show t.rebindOffer e' k = none by simp [rebindOffer, hc, hp]]
        exact foldlM_rebindStep he hk hnew ks u hu
      | some p =>
        have hkey : keep k.course :=
          hnew k (Std.HashMap.mem_iff_isSome_getElem?.mpr (by simp [hp])) hc
        have hstep : t.rebindStep e' { u with catalog := e' } k =
            ({ u with catalog := e' } : Timetable).assign k p := by
          simp [rebindStep, hc', hp]
        rw [hstep, show t.rebindOffer e' k = some (k, p) by simp [rebindOffer, hc, hp],
          assign_withCatalog (hu ▸ he) (hu ▸ hk) hkey, assignAll_cons]
        cases ha : u.assign k p with
        | error err => rfl
        | ok u₁ =>
          have hu₁ : u₁.catalog = t.catalog := by
            obtain ⟨-, rfl⟩ := assign_eq_ok.mp ha
            exact hu
          exact foldlM_rebindStep he hk hnew ks u₁ hu₁
    · -- a session of a dropped course is left out
      have hnone : (e'.course? k.course).isNone := by simpa using hc
      have hstep : t.rebindStep e' { u with catalog := e' } k = .ok { u with catalog := e' } := by
        simp [rebindStep, hnone, pure, Except.pure]
      rw [hstep, show t.rebindOffer e' k = none by simp [rebindOffer, hc]]
      exact foldlM_rebindStep he hk hnew ks u hu

end Moved

/-! ## Copying reasons -/

section Reasons

variable (e' : Catalog)

/-- Copying reasons moves no session and keeps the catalog. -/
theorem foldl_rebindReason_placements :
    ∀ (l : List (SessionKey × String)) (out : Timetable),
      (l.foldl (fun out x ↦ rebindReason e' out x.1 x.2) out).placements = out.placements ∧
        (l.foldl (fun out x ↦ rebindReason e' out x.1 x.2) out).catalog = out.catalog
  | [], _ => ⟨rfl, rfl⟩
  | x :: l, out => by
    obtain ⟨hp, hc⟩ := foldl_rebindReason_placements l (rebindReason e' out x.1 x.2)
    rw [List.foldl_cons, hp, hc]
    unfold rebindReason
    split <;> simp

/-- A session whose reasons are all skipped keeps its reason. -/
theorem foldl_rebindReason_of_skipped {k : SessionKey} :
    ∀ (l : List (SessionKey × String)) (out : Timetable),
      (∀ r, (k, r) ∈ l → (e'.course? k.course).isNone) →
      (l.foldl (fun out x ↦ rebindReason e' out x.1 x.2) out).reason? k = out.reason? k
  | [], _, _ => rfl
  | x :: l, out, hskip => by
    rw [List.foldl_cons, foldl_rebindReason_of_skipped l _ fun r hr ↦ hskip r (.tail _ hr)]
    unfold rebindReason
    split
    · rename_i hc
      rw [reason?_markUnscheduled]
      -- copying the reason of another session leaves this one alone
      have hne : x.1 ≠ k := by
        rintro rfl
        have := hskip x.2 (by simp)
        simp_all
      simp [hne]
    · rfl

/-- A copied reason of an unplaced session whose course `e'` has is set, when no other reason of
that session follows. -/
theorem foldl_rebindReason_of_mem {k : SessionKey} {r : String} :
    ∀ (l : List (SessionKey × String)) (out : Timetable), (l.map (·.1)).Nodup → (k, r) ∈ l →
      (e'.course? k.course).isSome → k ∉ out.placements →
      (l.foldl (fun out x ↦ rebindReason e' out x.1 x.2) out).reason? k = some r
  | [], _, _, hmem, _, _ => absurd hmem List.not_mem_nil
  | x :: l, out, hnd, hmem, hc, hk => by
    obtain ⟨hnot, hnd'⟩ := List.nodup_cons.mp hnd
    rw [List.foldl_cons]
    rcases List.mem_cons.mp hmem with rfl | hmem
    · -- this is the reason, and no later entry names the session
      rw [foldl_rebindReason_of_skipped e' l _ fun r' hr' ↦
        absurd (List.mem_map.mpr ⟨_, hr', rfl⟩) hnot]
      simp [rebindReason, hc, reason?_markUnscheduled, hk]
    · have hk' : k ∉ (rebindReason e' out x.1 x.2).placements := by
        unfold rebindReason
        split <;> simpa using hk
      exact foldl_rebindReason_of_mem l _ hnd' hmem hc hk'

/-- Copying the reasons of a timetable onto one without reasons, where none of those sessions is
placed, gives each session its reason exactly when `e'` has its course. -/
theorem reason?_fold_rebindReason {t u : Timetable} (hu : ∀ k, u.reason? k = none) (hw : ∀ k ∈ t.reasons, k ∉ u.placements) (k : SessionKey) :
    (t.reasons.fold (rebindReason e') u).reason? k =
      if (e'.course? k.course).isSome then t.reason? k else none := by
  rw [Std.HashMap.fold_eq_foldl_toList]
  cases hr : t.reasons[k]? with
  | none =>
    -- no reason of `k` is listed, so it keeps the none it had
    have hskip : ∀ r', (k, r') ∈ t.reasons.toList → (e'.course? k.course).isNone := by
      intro r' hr'
      rw [Std.HashMap.mem_toList_iff_getElem?_eq_some, hr] at hr'
      cases hr'
    rw [foldl_rebindReason_of_skipped e' _ _ hskip, hu k]
    split <;> simp [reason?, hr]
  | some r =>
    have hmem : (k, r) ∈ t.reasons.toList := Std.HashMap.mem_toList_iff_getElem?_eq_some.mpr hr
    split
    · rename_i hc
      have hnd : (t.reasons.toList.map (·.1)).Nodup := by
        rw [Std.HashMap.map_fst_toList_eq_keys]
        exact Std.HashMap.nodup_keys
      have hkr : k ∈ t.reasons := Std.HashMap.mem_iff_isSome_getElem?.mpr (by simp [hr])
      rw [foldl_rebindReason_of_mem e' _ _ hnd hmem hc (hw k hkr)]
      exact hr.symm
    · rename_i hc
      rw [foldl_rebindReason_of_skipped e' _ _ fun _ _ ↦ by simpa using hc, hu k]

end Reasons

/-! ## Moving a reachable timetable -/

variable {t : Timetable} {e' : Catalog}

/-- The offers of a timetable's placed sessions: their placements, for the courses `e'` has. -/
theorem mem_filterMap_rebindOffer {kp : SessionKey × Placement} :
    kp ∈ t.keys.filterMap (t.rebindOffer e') ↔
      t.placements[kp.1]? = some kp.2 ∧ (e'.course? kp.1.course).isSome := by
  obtain ⟨k, p⟩ := kp
  simp only [List.mem_filterMap, rebindOffer]
  constructor
  · rintro ⟨k', -, hoff⟩
    split at hoff
    · obtain ⟨p', hp', hkp⟩ := Option.map_eq_some_iff.mp hoff
      cases hkp
      exact ⟨hp', by assumption⟩
    · cases hoff
  · rintro ⟨hp, hc⟩
    have hk : k ∈ t.placements := Std.HashMap.mem_iff_isSome_getElem?.mpr (by simp [hp])
    exact ⟨k, t.keys_perm.mem_iff.mpr (Std.HashMap.mem_keys.mpr hk), by simp [hc, hp]⟩

/-- Each session is offered at most once. -/
theorem nodup_filterMap_rebindOffer : ((t.keys.filterMap (t.rebindOffer e')).map (·.1)).Nodup := by
  rw [List.map_filterMap]
  refine (t.keys_perm.nodup_iff.mpr Std.HashMap.nodup_keys).filterMap fun a a' b hb hb' ↦ ?_
  simp only [rebindOffer, Option.mem_def] at hb hb'
  split at hb <;> split at hb' <;> simp_all

/-- The offered placements of a reachable timetable are accepted again, one after another, over
its catalog: the sessions of the courses `e'` has come back where they were, the others stay
out, and no session has a reason. -/
theorem Reachable.assignAll_rebindOffer (ht : t.Reachable) (e' : Catalog) :
    ∃ u, (Timetable.empty t.catalog).assignAll (t.keys.filterMap (t.rebindOffer e')) = .ok u ∧
      u.Reachable ∧ u.catalog = t.catalog ∧ u.Within t ∧
      (∀ k : SessionKey, u.placements[k]? = if (e'.course? k.course).isSome then t.placements[k]?
        else none) ∧
      ∀ k, u.reason? k = none := by
  obtain ⟨u, hu, hur, huw, hsame, hput⟩ := Reachable.assignAll_within ht _ (.empty ht.indexed) rfl
    ⟨fun h ↦ by simp at h⟩ nodup_filterMap_rebindOffer
    fun kp hkp ↦ ⟨(mem_filterMap_rebindOffer.mp hkp).1, by simp⟩
  -- an offered session is placed at its offer; any other keeps the empty timetable's nothing
  have hoffered : ∀ k : SessionKey, k ∈ (t.keys.filterMap (t.rebindOffer e')).map (·.1) →
      u.placements[k]? = t.placements[k]? := by
    intro k hk
    obtain ⟨kp, hkp, rfl⟩ := List.mem_map.mp hk
    rw [hput kp hkp, (mem_filterMap_rebindOffer.mp hkp).1]
  have hother : ∀ k : SessionKey, k ∉ (t.keys.filterMap (t.rebindOffer e')).map (·.1) →
      u.placements[k]? = none ∧ u.reason? k = none := by
    intro k hk
    rw [hsame.placements k hk, hsame.reasons k hk]
    simp [reason?]
  refine ⟨u, hu, hur, hsame.catalog, huw, fun k ↦ ?_, fun k ↦ ?_⟩
  · by_cases hk : k ∈ (t.keys.filterMap (t.rebindOffer e')).map (·.1)
    · obtain ⟨kp, hkp, rfl⟩ := List.mem_map.mp hk
      rw [hoffered _ hk, if_pos (mem_filterMap_rebindOffer.mp hkp).2]
    · rw [(hother k hk).1]
      split
      · -- a session of a kept course that is not offered is not placed in `t`
        rename_i hc
        cases hp : t.placements[k]? with
        | none => rfl
        | some p =>
          exact absurd (List.mem_map.mpr ⟨(k, p), mem_filterMap_rebindOffer.mpr ⟨hp, hc⟩, rfl⟩) hk
      · rfl
  · by_cases hk : k ∈ (t.keys.filterMap (t.rebindOffer e')).map (·.1)
    · -- an offered session is placed, and a placed session has no reason
      have hpl : k ∈ u.placements := by
        obtain ⟨kp, hkp, rfl⟩ := List.mem_map.mp hk
        exact Std.HashMap.mem_iff_isSome_getElem?.mpr (by simp [hput kp hkp])
      exact Std.HashMap.getElem?_eq_none fun h ↦ hur.coherent.reasons_unplaced h hpl
    · exact (hother k hk).2

/-- Moving a reachable timetable onto an indexed catalog that keeps the courses of the kept ids,
among them those of the placed sessions it has, succeeds: the result places a session, where it
was, and gives it its reason, exactly when the new catalog has the session's course. -/
theorem Reachable.rebind_eq_ok (ht : t.Reachable) (he' : e'.Indexed) {keep : String → Prop}
    (hk : t.catalog.Keeps e' keep)
    (hnew : ∀ k ∈ t.placements, (e'.course? k.course).isSome → keep k.course) :
    ∃ out, t.rebind e' = .ok out ∧ out.Reachable ∧ out.catalog = e' ∧
      (∀ k, out.lookup k = if (e'.course? k.course).isSome then t.lookup k else none) ∧
      (∀ k, out.reason? k = if (e'.course? k.course).isSome then t.reason? k else none) := by
  obtain ⟨u, hu, -, hucat, huw, hulook, hureason⟩ := ht.assignAll_rebindOffer e'
  -- the placements are assigned again over the new catalog as over the old one
  have hfold : t.keys.foldlM (t.rebindStep e') (Timetable.empty e') = .ok { u with catalog := e' } := by
    have h := foldlM_rebindStep ht.indexed hk hnew t.keys (Timetable.empty t.catalog) rfl
    rw [hu] at h
    exact h
  have hreb : t.rebind e' = .ok (t.reasons.fold (rebindReason e') { u with catalog := e' }) := by
    unfold Timetable.rebind
    rw [hfold]
    rfl
  obtain ⟨hp, hc⟩ := foldl_rebindReason_placements e' t.reasons.toList { u with catalog := e' }
  rw [← Std.HashMap.fold_eq_foldl_toList] at hp hc
  -- a session with a reason in `t` is not placed there, so not in `u` either
  have hw : ∀ k ∈ t.reasons, k ∉ ({ u with catalog := e' } : Timetable).placements := by
    intro k hk hpl
    obtain ⟨p, hp'⟩ := Option.isSome_iff_exists.mp (Std.HashMap.mem_iff_isSome_getElem?.mp hpl)
    exact ht.coherent.reasons_unplaced hk
      (Std.HashMap.mem_iff_isSome_getElem?.mpr (by simp [huw.placement hp']))
  refine ⟨_, hreb, .rebind he' hreb, hc, fun k ↦ ?_,
    reason?_fold_rebindReason e' hureason hw⟩
  simp only [lookup, hp]
  exact hulook k

end Timetable

end Timetabling
