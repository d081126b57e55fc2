import Timetabling.Proofs.Timetable.Coherence

/-! # What coherence guarantees

A coherent timetable over an indexed catalog is a valid partial timetable:

* each member of staff, each room and each student is booked at most once per slot
  (`Timetable.Exclusive`), because the indexes hold one session per owner and slot;
* every placed session is a session of the catalog, so the placed sessions and the missing ones
  together are all the sessions the catalog asks for (`Coherent.size_add_length_missing`). -/

namespace Timetabling

namespace Timetable

/-! ## One session per resource and slot -/

/-- No member of staff, room or student is booked twice in a slot. -/
structure Exclusive (t : Timetable) : Prop where
  faculty : ∀ {k₁ k₂ s}, t.slotOf k₁ = some s → t.slotOf k₂ = some s →
    t.facultyOf k₁.course = t.facultyOf k₂.course → k₁ = k₂
  room : ∀ {k₁ k₂ : SessionKey} {p : Placement}, t.placements[k₁]? = some p → t.placements[k₂]? = some p → k₁ = k₂
  student : ∀ {k₁ k₂ s st}, t.slotOf k₁ = some s → t.slotOf k₂ = some s →
    st ∈ t.catalog.students k₁.course → st ∈ t.catalog.students k₂.course → k₁ = k₂

/-- A coherent timetable books every resource at most once per slot: the index entry of an owner
and slot names a single session. -/
theorem Coherent.exclusive {t : Timetable} (ht : t.Coherent) : t.Exclusive where
  faculty {k₁ k₂ s} h₁ h₂ hf := by
    have e₁ := (ht.facultyAt_iff _ s k₁).mpr ⟨h₁, rfl⟩
    have e₂ := (ht.facultyAt_iff _ s k₂).mpr ⟨h₂, hf.symm⟩
    rw [e₁] at e₂
    exact Option.some.inj e₂
  room {k₁ k₂ p} h₁ h₂ := by
    have e₁ := (ht.roomAt_iff p.room p.slot k₁).mpr h₁
    have e₂ := (ht.roomAt_iff p.room p.slot k₂).mpr h₂
    rw [e₁] at e₂
    exact Option.some.inj e₂
  student {k₁ k₂ s st} h₁ h₂ hs₁ hs₂ := by
    have e₁ := (ht.studentAt_iff st s k₁).mpr ⟨h₁, hs₁⟩
    have e₂ := (ht.studentAt_iff st s k₂).mpr ⟨h₂, hs₂⟩
    rw [e₁] at e₂
    exact Option.some.inj e₂

end Timetable

/-! ## All sessions, placed or missing -/

namespace Catalog

/-- Every session of the catalog's courses, in course order. -/
def sessionKeys (e : Catalog) : List SessionKey :=
  e.courses.toList.flatMap fun c ↦
    (List.range c.sessions.toNat).map fun (i : Nat) ↦ ({ course := c.id, index := (i : Int) } : SessionKey)

theorem mem_sessionKeys {e : Catalog} {k : SessionKey} :
    k ∈ e.sessionKeys ↔ ∃ c ∈ e.courses.toList, k.course = c.id ∧ 0 ≤ k.index ∧ k.index < c.sessions := by
  simp only [sessionKeys, List.mem_flatMap, List.mem_map, List.mem_range]
  constructor
  · rintro ⟨c, hc, i, hi, rfl⟩
    exact ⟨c, hc, rfl, by dsimp only; omega, by dsimp only; omega⟩
  · rintro ⟨c, hc, hk, h0, hlt⟩
    refine ⟨c, hc, k.index.toNat, by omega, ?_⟩
    obtain ⟨kc, ki⟩ := k
    dsimp only at hk h0 ⊢
    rw [hk, Int.toNat_of_nonneg h0]

/-- No session is listed twice, since course ids are distinct. -/
theorem Indexed.sessionKeys_nodup {e : Catalog} (he : e.Indexed) : e.sessionKeys.Nodup := by
  unfold sessionKeys
  rw [List.nodup_flatMap]
  refine ⟨fun c _ ↦ List.nodup_range.map fun i j h ↦ by simp at h; omega, ?_⟩
  -- sessions of two courses differ in their course id
  refine (List.pairwise_map.mp he.courseIds_nodup).imp fun {a b} hab ↦ ?_
  simp only [Function.onFun, List.disjoint_left, List.mem_map]
  rintro _ ⟨i, -, rfl⟩ ⟨j, -, h⟩
  exact hab (congrArg SessionKey.course h).symm

/-- The catalog asks for as many sessions as it lists, once every course has a non-negative
count. -/
theorem Indexed.length_sessionKeys {e : Catalog} (he : e.Indexed) :
    (e.sessionKeys.length : Int) = e.totalSessions := by
  have step : ∀ (cs : List Course) (acc : Int), (∀ c ∈ cs, 0 ≤ c.sessions) →
      acc + ((cs.flatMap fun c ↦ (List.range c.sessions.toNat).map
        fun (i : Nat) ↦ ({ course := c.id, index := (i : Int) } : SessionKey)).length : Int) =
        cs.foldl (fun acc c ↦ acc + c.sessions) acc := by
    intro cs
    induction cs with
    | nil => simp
    | cons c cs ih =>
      intro acc hcs
      have hc := hcs c (by simp)
      rw [List.flatMap_cons, List.length_append, List.foldl_cons,
        ← ih _ fun c' hc' ↦ hcs c' (by simp [hc'])]
      simp only [List.length_map, List.length_range]
      omega
  have h := step e.courses.toList 0 fun c hc ↦ he.sessions_nonneg hc
  rw [Int.zero_add, Array.foldl_toList] at h
  exact h

end Catalog

namespace Timetable

/-- The missing sessions are the catalog's sessions that are not placed. -/
theorem missing_eq_filter (t : Timetable) :
    t.missing = t.catalog.sessionKeys.filter fun k ↦ !t.placements.contains k := by
  rw [missing, Catalog.sessionKeys, List.filter_flatMap]

/-- Every placed session of a coherent timetable is one of the catalog's sessions. -/
theorem Coherent.mem_sessionKeys {t : Timetable} (ht : t.Coherent) (he : t.catalog.Indexed)
    {k : SessionKey} (hk : k ∈ t.placements) : k ∈ t.catalog.sessionKeys := by
  obtain ⟨p, hp⟩ := Option.isSome_iff_exists.mp (Std.HashMap.mem_iff_isSome_getElem?.mp hk)
  obtain ⟨c, hc, h0, hlt, -⟩ := ht.admissible hp
  exact Catalog.mem_sessionKeys.mpr
    ⟨c, Catalog.mem_of_course? hc, (he.course?_id hc).symm, h0, hlt⟩

/-- The placed sessions are the catalog's sessions that are placed, up to order. -/
theorem Coherent.keys_perm {t : Timetable} (ht : t.Coherent) (he : t.catalog.Indexed) :
    t.placements.keys.Perm (t.catalog.sessionKeys.filter fun k ↦ t.placements.contains k) := by
  refine (List.perm_ext_iff_of_nodup Std.HashMap.nodup_keys
    (he.sessionKeys_nodup.filter _)).mpr fun k ↦ ?_
  rw [Std.HashMap.mem_keys, List.mem_filter, Std.HashMap.contains_iff_mem]
  exact ⟨fun hk ↦ ⟨ht.mem_sessionKeys he hk, hk⟩, fun h ↦ h.2⟩

/-- Placed and missing sessions together are all the sessions the catalog asks for. -/
theorem Coherent.size_add_length_missing {t : Timetable} (ht : t.Coherent)
    (he : t.catalog.Indexed) :
    (t.size + t.missing.length : Int) = t.catalog.totalSessions := by
  have hsize : t.size = (t.catalog.sessionKeys.filter fun k ↦ t.placements.contains k).length := by
    rw [size, ← Std.HashMap.length_keys]
    exact (ht.keys_perm he).length_eq
  have hsplit := List.length_eq_length_filter_add (fun k ↦ t.placements.contains k)
    (l := t.catalog.sessionKeys)
  rw [hsize, missing_eq_filter, ← he.length_sessionKeys]
  omega

end Timetable

end Timetabling
