import Timetabling.Proofs.Catalog.Arranged
import Timetabling.Proofs.Timetable.Coherence

/-! # Placements that fit together

A timetable can take a list of placements in two senses:

* one after another, each accepted by `assign` (`Timetable.assignAll`);
* all together (`Timetable.Admits`): each placement is one the catalog allows, finds its staff
  member, room and students free, two of them in one slot share no staff member, room or student,
  and no staff member goes over a positive weekly cap.

A run of accepted assignments gives the second view of what it placed
(`Timetable.admits_of_assignAll`), and the second view lets any of its placements be assigned next
and leaves the rest admitted (`Timetable.Admits.fits`, `Timetable.Admits.place`), in whatever
order. Searches that place sessions and take them back read a timetable only through its lookups;
`Timetable.Agrees` says that two timetables answer every lookup alike, and removing a session just
placed gives back a timetable that agrees with the one before (`Timetable.unassign_place_agrees`).
-/

namespace Timetabling

namespace Timetable

/-! ## Timetables that answer alike -/

/-- Two timetables over one catalog answer every lookup alike: placements, the staff, room and
student indexes, and the loads. Reasons are not compared. -/
structure Agrees (t t' : Timetable) : Prop where
  catalog : t.catalog = t'.catalog
  placements : ∀ k : SessionKey, t.placements[k]? = t'.placements[k]?
  facultyAt : ∀ x : String × String, t.facultyAt[x]? = t'.facultyAt[x]?
  roomAt : ∀ x : String × String, t.roomAt[x]? = t'.roomAt[x]?
  studentAt : ∀ x : String × String, t.studentAt[x]? = t'.studentAt[x]?
  facultyLoad : ∀ f, t.facultyLoad f = t'.facultyLoad f
  slotLoad : ∀ s, t.slotLoad s = t'.slotLoad s

namespace Agrees

variable {t t' t'' : Timetable}

@[refl] theorem refl (t : Timetable) : t.Agrees t :=
  ⟨rfl, fun _ ↦ rfl, fun _ ↦ rfl, fun _ ↦ rfl, fun _ ↦ rfl, fun _ ↦ rfl, fun _ ↦ rfl⟩

@[symm] theorem symm (h : t.Agrees t') : t'.Agrees t :=
  ⟨h.catalog.symm, fun k ↦ (h.placements k).symm, fun x ↦ (h.facultyAt x).symm,
    fun x ↦ (h.roomAt x).symm, fun x ↦ (h.studentAt x).symm, fun f ↦ (h.facultyLoad f).symm,
    fun s ↦ (h.slotLoad s).symm⟩

theorem trans (h₁ : t.Agrees t') (h₂ : t'.Agrees t'') : t.Agrees t'' :=
  ⟨h₁.catalog.trans h₂.catalog, fun k ↦ (h₁.placements k).trans (h₂.placements k),
    fun x ↦ (h₁.facultyAt x).trans (h₂.facultyAt x), fun x ↦ (h₁.roomAt x).trans (h₂.roomAt x),
    fun x ↦ (h₁.studentAt x).trans (h₂.studentAt x),
    fun f ↦ (h₁.facultyLoad f).trans (h₂.facultyLoad f),
    fun s ↦ (h₁.slotLoad s).trans (h₂.slotLoad s)⟩

theorem facultyOf_eq (h : t.Agrees t') : t.facultyOf = t'.facultyOf :=
  facultyOf_of_catalog h.catalog

theorem mem_placements (h : t.Agrees t') (k : SessionKey) : k ∈ t.placements ↔ k ∈ t'.placements := by
  rw [Std.HashMap.mem_iff_isSome_getElem?, Std.HashMap.mem_iff_isSome_getElem?, h.placements]

theorem lookup_eq (h : t.Agrees t') (k : SessionKey) : t.lookup k = t'.lookup k :=
  h.placements k

/-- A check reads a timetable only through its lookups. -/
theorem check_eq (h : t.Agrees t') (k : SessionKey) (p : Placement) : t.check k p = t'.check k p := by
  have hload : ∀ f, t.facultyLoads[f]?.getD 0 = t'.facultyLoads[f]?.getD 0 := h.facultyLoad
  simp only [check, h.catalog, Std.HashMap.contains_eq_isSome_getElem?, h.placements, h.facultyAt,
    h.roomAt, h.studentAt, hload]

/-- Placing a session in timetables that agree gives timetables that agree. -/
theorem place (h : t.Agrees t') (k : SessionKey) (p : Placement) :
    (t.place k p).Agrees (t'.place k p) where
  catalog := h.catalog
  placements x := by simp only [place_placements, Std.HashMap.getElem?_insert, h.placements]
  facultyAt x := by
    simp only [place_facultyAt, Std.HashMap.getElem?_insert, h.facultyAt, h.facultyOf_eq]
  roomAt x := by simp only [place_roomAt, Std.HashMap.getElem?_insert, h.roomAt]
  studentAt x := by
    simp only [place_studentAt, getElem?_foldl_insert_students, h.studentAt, h.catalog]
  facultyLoad f := by simp only [facultyLoad_place, h.facultyLoad, h.facultyOf_eq]
  slotLoad s := by simp only [slotLoad_place, h.slotLoad]

/-- Removing a session from timetables that agree gives timetables that agree. -/
theorem unassign (h : t.Agrees t') (k : SessionKey) : (t.unassign k).2.Agrees (t'.unassign k).2 := by
  cases hp : t.placements[k]? with
  | none =>
    rw [unassign_of_getElem?_eq_none hp, unassign_of_getElem?_eq_none ((h.placements k).symm.trans hp)]
    exact h
  | some p =>
    have hp' := (h.placements k).symm.trans hp
    refine ⟨by simp [h.catalog], fun x ↦ ?_, fun x ↦ ?_, fun x ↦ ?_, fun x ↦ ?_, fun f ↦ ?_,
      fun s ↦ ?_⟩
    · simp only [unassign_of_getElem? hp, unassign_of_getElem? hp', Std.HashMap.getElem?_erase,
        h.placements]
    · simp only [unassign_of_getElem? hp, unassign_of_getElem? hp', Std.HashMap.getElem?_erase,
        h.facultyAt, h.facultyOf_eq]
    · simp only [unassign_of_getElem? hp, unassign_of_getElem? hp', Std.HashMap.getElem?_erase,
        h.roomAt]
    · simp only [unassign_of_getElem? hp, unassign_of_getElem? hp', getElem?_foldl_erase_students,
        h.studentAt, h.catalog]
    · simp only [facultyLoad_unassign hp, facultyLoad_unassign hp', h.facultyLoad, h.facultyOf_eq]
    · simp only [slotLoad_unassign hp, slotLoad_unassign hp', h.slotLoad]

/-- An accepted assignment is accepted alike by a timetable that agrees. -/
theorem assign (h : t.Agrees t') {k : SessionKey} {p : Placement} {u : Timetable}
    (ha : t.assign k p = .ok u) : ∃ u', t'.assign k p = .ok u' ∧ u.Agrees u' := by
  obtain ⟨hc, rfl⟩ := assign_eq_ok.mp ha
  exact ⟨_, assign_eq_ok.mpr ⟨(h.check_eq k p).symm.trans hc, rfl⟩, h.place k p⟩

end Agrees

/-- Removing a session just placed gives back a timetable that agrees with the one before. -/
theorem unassign_place_agrees {t : Timetable} {k : SessionKey} {p : Placement} {c : Course}
    (he : t.catalog.Indexed) (hf : t.Fits k p c) : ((t.place k p).unassign k).2.Agrees t := by
  have hp : (t.place k p).placements[k]? = some p := by simp
  have hunplaced : t.placements[k]? = none := Std.HashMap.getElem?_eq_none hf.unplaced
  have hfac := hf.facultyOf_eq
  -- the students entered are those of the session's own course, all free before
  have hcid : c.id = k.course := he.course?_id hf.course
  have hstud := hf.studentsFree
  rw [hcid] at hstud
  refine ⟨by simp, fun x ↦ ?_, fun x ↦ ?_, fun x ↦ ?_, fun x ↦ ?_, fun f ↦ ?_, fun s ↦ ?_⟩
  · simp only [unassign_of_getElem? hp, place_placements, Std.HashMap.getElem?_erase,
      Std.HashMap.getElem?_insert]
    grind
  · simp only [unassign_of_getElem? hp, place_facultyAt, Std.HashMap.getElem?_erase,
      Std.HashMap.getElem?_insert, facultyOf_of_catalog (place_catalog t k p)]
    have := hf.facultyFree
    grind
  · simp only [unassign_of_getElem? hp, place_roomAt, Std.HashMap.getElem?_erase,
      Std.HashMap.getElem?_insert]
    have := hf.roomFree
    grind
  · simp only [unassign_of_getElem? hp, place_studentAt, getElem?_foldl_erase_students,
      getElem?_foldl_insert_students, place_catalog]
    obtain ⟨st, slot⟩ := x
    grind
  · rw [facultyLoad_unassign hp, facultyLoad_place, facultyOf_of_catalog (place_catalog t k p)]
    split <;> simp_all
  · rw [slotLoad_unassign hp, slotLoad_place]
    split <;> simp_all

/-! ## Assigning one after another -/

/-- Assign placements in order, stopping at the first refusal. -/
def assignAll (t : Timetable) (L : List (SessionKey × Placement)) : Except Conflict Timetable :=
  L.foldlM (fun t kp => t.assign kp.1 kp.2) t

@[simp] theorem assignAll_nil (t : Timetable) : t.assignAll [] = .ok t := rfl

theorem assignAll_cons (t : Timetable) (kp : SessionKey × Placement) (L : List (SessionKey × Placement)) :
    t.assignAll (kp :: L) = t.assign kp.1 kp.2 >>= fun u => u.assignAll L := rfl

/-- Assigning one more placement at the end. -/
theorem assignAll_append_ok {t u u' : Timetable} {L : List (SessionKey × Placement)}
    {k : SessionKey} {p : Placement} (hL : t.assignAll L = .ok u) (ha : u.assign k p = .ok u') :
    t.assignAll (L ++ [(k, p)]) = .ok u' := by
  rw [assignAll, List.foldlM_append]
  rw [assignAll] at hL
  rw [hL]
  show (u.assign k p >>= fun s => pure s) = _
  rw [ha]
  rfl

/-- The sessions placed by a run of accepted assignments: those placed before and those assigned,
each assigned once. -/
theorem assignAll_placements {t u : Timetable} {L : List (SessionKey × Placement)}
    (h : t.assignAll L = .ok u) :
    (∀ k, k ∈ u.placements ↔ k ∈ t.placements ∨ k ∈ L.map (·.1)) ∧ (L.map (·.1)).Nodup ∧
      ∀ k ∈ L.map (·.1), k ∉ t.placements := by
  induction L generalizing t with
  | nil => cases h; simp
  | cons kp L ih =>
    rw [assignAll_cons] at h
    obtain ⟨t₁, h₁, hrest⟩ := Catalog.exists_of_bind_eq_ok h
    obtain ⟨hc, rfl⟩ := assign_eq_ok.mp h₁
    obtain ⟨c, hf⟩ := check_eq_none_iff.mp hc
    obtain ⟨hmem, hnodup, hfresh⟩ := ih hrest
    simp only [place_placements, Std.HashMap.mem_insert, beq_iff_eq] at hmem hfresh
    refine ⟨fun k ↦ ?_, ?_, ?_⟩
    · rw [hmem]
      simp only [List.map_cons, List.mem_cons]
      tauto
    · exact List.nodup_cons.mpr ⟨fun h' ↦ (hfresh _ h') (.inl rfl), hnodup⟩
    · intro k hk
      rcases List.mem_cons.mp hk with rfl | hk
      · exact hf.unplaced
      · exact fun h' ↦ hfresh k hk (.inr h')

/-- A run of accepted assignments from a reachable timetable ends in one. -/
theorem Reachable.assignAll {t u : Timetable} (ht : t.Reachable) {L : List (SessionKey × Placement)}
    (h : t.assignAll L = .ok u) : u.Reachable := by
  induction L generalizing t with
  | nil => cases h; exact ht
  | cons kp L ih =>
    rw [assignAll_cons] at h
    obtain ⟨t₁, h₁, hrest⟩ := Catalog.exists_of_bind_eq_ok h
    exact ih (ht.assign h₁) hrest

/-- A run of accepted assignments over timetables that agree. -/
theorem Agrees.assignAll {t t' u : Timetable} (h : t.Agrees t') {L : List (SessionKey × Placement)}
    (hL : t.assignAll L = .ok u) : ∃ u', t'.assignAll L = .ok u' ∧ u.Agrees u' := by
  induction L generalizing t t' with
  | nil => cases hL; exact ⟨t', rfl, h⟩
  | cons kp L ih =>
    rw [assignAll_cons] at hL
    obtain ⟨t₁, h₁, hrest⟩ := Catalog.exists_of_bind_eq_ok hL
    obtain ⟨t₁', h₁', hagree⟩ := h.assign h₁
    obtain ⟨u', hu', hu⟩ := ih hagree hrest
    exact ⟨u', by rw [assignAll_cons, h₁']; exact hu', hu⟩

/-! ## Placements a timetable admits together -/

/-- The staff member, room and students that a placement for a course of the given id needs are
free in a timetable. -/
def Free (t : Timetable) (x : String × Placement) : Prop :=
  t.facultyAt[(t.facultyOf x.1, x.2.slot)]? = none ∧ t.roomAt[(x.2.room, x.2.slot)]? = none ∧
    ∀ st ∈ t.catalog.students x.1, t.studentAt[(st, x.2.slot)]? = none

/-- Two placements, for courses of the given ids, can stand together: they are in different slots,
or they have different staff members, different rooms and no common student. -/
def Apart (t : Timetable) (x y : String × Placement) : Prop :=
  x.2.slot ≠ y.2.slot ∨
    t.facultyOf x.1 ≠ t.facultyOf y.1 ∧ x.2.room ≠ y.2.room ∧
      ∀ st ∈ t.catalog.students x.1, st ∉ t.catalog.students y.1

theorem Apart.symm {t : Timetable} {x y : String × Placement} (h : t.Apart x y) : t.Apart y x := by
  rcases h with h | ⟨hf, hr, hs⟩
  · exact .inl (Ne.symm h)
  · exact .inr ⟨Ne.symm hf, Ne.symm hr, fun st hy hx ↦ hs st hx hy⟩

/-- Placements, each for a session of the course of the given id, that a timetable can take all
together. -/
structure Admits (t : Timetable) (R : List (String × Placement)) : Prop where
  allows : ∀ x ∈ R, ∃ c, t.catalog.course? x.1 = some c ∧ t.catalog.Allows c x.2
  free : ∀ x ∈ R, t.Free x
  apart : R.Pairwise t.Apart
  underCap : ∀ f, 0 < weeklyCap t.catalog f →
    (t.facultyLoad f + R.countP (fun x => t.facultyOf x.1 == f) : Int) ≤ weeklyCap t.catalog f

namespace Admits

variable {t t' : Timetable} {R R' : List (String × Placement)}

/-- What a timetable admits depends only on its lookups. -/
theorem agrees (h : t.Admits R) (ht : t.Agrees t') : t'.Admits R where
  allows x hx := ht.catalog ▸ h.allows x hx
  free x hx := by
    obtain ⟨hf, hr, hs⟩ := h.free x hx
    refine ⟨?_, ?_, ?_⟩
    · rw [← ht.facultyOf_eq, ← ht.facultyAt]
      exact hf
    · rw [← ht.roomAt]
      exact hr
    · intro st hst
      rw [← ht.studentAt]
      exact hs st (ht.catalog ▸ hst)
  apart := h.apart.imp fun {x y} hxy ↦ by
    unfold Apart at hxy ⊢
    rwa [← ht.facultyOf_eq, ← ht.catalog]
  underCap f hf := by
    rw [← ht.facultyLoad, ← ht.facultyOf_eq, ← ht.catalog]
    exact h.underCap f (ht.catalog ▸ hf)

/-- The order of the placements does not matter. -/
theorem perm (h : t.Admits R) (hp : R.Perm R') : t.Admits R' where
  allows x hx := h.allows x (hp.mem_iff.mpr hx)
  free x hx := h.free x (hp.mem_iff.mpr hx)
  apart := (hp.pairwise_iff fun {_ _} hxy ↦ hxy.symm).mp h.apart
  underCap f hf := by
    rw [← hp.countP_eq]
    exact h.underCap f hf

/-- Fewer placements are still admitted. -/
theorem sublist (h : t.Admits R) (hs : R'.Sublist R) : t.Admits R' where
  allows x hx := h.allows x (hs.subset hx)
  free x hx := h.free x (hs.subset hx)
  apart := h.apart.sublist hs
  underCap f hf := by
    have hle : R'.countP (fun x => t.facultyOf x.1 == f) ≤ R.countP (fun x => t.facultyOf x.1 == f) :=
      hs.countP_le
    have := h.underCap f hf
    omega

/-- Admitted placements that share a staff member are in different slots. -/
theorem nodup_slots (h : t.Admits R) {P : String × Placement → Bool}
    (hP : ∀ x y, P x = true → P y = true → t.facultyOf x.1 = t.facultyOf y.1) :
    ((R.filter P).map (·.2.slot)).Nodup := by
  refine List.pairwise_map.mpr (List.pairwise_filter.mpr (h.apart.imp fun {x y} hxy hx hy ↦ ?_))
  rcases hxy with hslot | ⟨hfac, -, -⟩
  · exact hslot
  · exact absurd (hP x y hx hy) hfac

/-- Admitted placements that share a staff member are no more than the slots of any list holding
theirs. -/
theorem countP_le (h : t.Admits R) {P : String × Placement → Bool}
    (hP : ∀ x y, P x = true → P y = true → t.facultyOf x.1 = t.facultyOf y.1) {S : List String}
    (hmem : ∀ x ∈ R, P x = true → x.2.slot ∈ S) : R.countP P ≤ S.length := by
  have hle : ((R.filter P).map (·.2.slot)).length ≤ S.length :=
    (h.nodup_slots hP).length_le_of_subset fun y hy ↦ by
      obtain ⟨x, hx, rfl⟩ := List.mem_map.mp hy
      obtain ⟨hxR, hxP⟩ := List.mem_filter.mp hx
      exact hmem x hxR hxP
  simpa [List.countP_eq_length_filter] using hle

/-- An admitted placement at the head fits a session of its course that is not placed yet. -/
theorem fits {k : SessionKey} {q : Placement} {c : Course} (he : t.catalog.Indexed)
    (h : t.Admits ((k.course, q) :: R))
    (hc : t.catalog.course? k.course = some c) (h0 : 0 ≤ k.index) (hlt : k.index < c.sessions)
    (hk : k ∉ t.placements) : t.Fits k q c := by
  obtain ⟨c', hc', hslot, hroom, havail⟩ := h.allows _ (List.mem_cons_self ..)
  have hcc : c' = c := Option.some.inj (hc'.symm.trans hc)
  subst hcc
  obtain ⟨hfree, hroomFree, hstud⟩ := h.free _ (List.mem_cons_self ..)
  have hfac : t.facultyOf k.course = c'.facultyId := by simp [facultyOf, hc]
  refine ⟨hc, h0, hlt, hk, hslot, hroom, havail, hfac ▸ hfree, hroomFree, fun st hst ↦ ?_,
    fun hpos ↦ ?_⟩
  · -- the course found under the session's course id carries that id
    rw [he.course?_id hc] at hst
    exact hstud st hst
  · have hcap := h.underCap c'.facultyId hpos
    simp only [List.countP_cons, hfac, beq_self_eq_true, if_true] at hcap
    unfold facultyLoad at hcap
    omega

/-- Placing the head of admitted placements leaves the rest admitted by the new timetable. -/
theorem place {k : SessionKey} {q : Placement} (h : t.Admits ((k.course, q) :: R)) :
    (t.place k q).Admits R where
  allows x hx := h.allows x (List.mem_cons_of_mem _ hx)
  free x hx := by
    obtain ⟨hf, hr, hs⟩ := h.free x (List.mem_cons_of_mem _ hx)
    have hapart : t.Apart (k.course, q) x := List.rel_of_pairwise_cons h.apart hx
    rw [Free, facultyOf_of_catalog (place_catalog t k q), place_catalog, place_facultyAt,
      place_roomAt, place_studentAt]
    refine ⟨?_, ?_, fun st hst ↦ ?_⟩
    · have hne : (t.facultyOf k.course, q.slot) ≠ (t.facultyOf x.1, x.2.slot) := by
        rcases hapart with hslot | ⟨hfac, -, -⟩ <;> simp_all
      simp [Std.HashMap.getElem?_insert, hne, hf]
    · have hne : (q.room, q.slot) ≠ (x.2.room, x.2.slot) := by
        rcases hapart with hslot | ⟨-, hroom, -⟩ <;> simp_all
      simp [Std.HashMap.getElem?_insert, hne, hr]
    · -- the session's students are entered in its slot, which no student of `x` shares
      have hnot : ¬ (x.2.slot = q.slot ∧ st ∈ t.catalog.students k.course) := by
        rcases hapart with hslot | ⟨-, -, hstud⟩
        · exact fun h' ↦ hslot h'.1.symm
        · exact fun h' ↦ hstud st h'.2 hst
      rw [getElem?_foldl_insert_students, if_neg hnot]
      exact hs st hst
  apart := (List.pairwise_cons.mp h.apart).2
  underCap f hf := by
    have hcap := h.underCap f hf
    rw [List.countP_cons] at hcap
    rw [facultyLoad_place, facultyOf_of_catalog (place_catalog t k q), place_catalog]
    by_cases hk : t.facultyOf k.course = f <;> simp [hk] at hcap ⊢ <;> omega

/-- An index entry free after an insertion was free before it. -/
theorem getElem?_eq_none_of_insert {α β : Type} [BEq α] [Hashable α] [LawfulBEq α]
    {m : Std.HashMap α β} {a x : α} {b : β} (h : (m.insert a b)[x]? = none) : m[x]? = none := by
  rw [Std.HashMap.getElem?_insert] at h
  split at h
  · cases h
  · exact h

/-- A placement that fits, put in front of placements admitted after it, is admitted with them. -/
theorem of_place {k : SessionKey} {q : Placement} {c : Course} (he : t.catalog.Indexed)
    (hf : t.Fits k q c) (h : (t.place k q).Admits R) : t.Admits ((k.course, q) :: R) where
  allows x hx := by
    rcases List.mem_cons.mp hx with rfl | hx
    · exact ⟨c, hf.course, hf.slot, hf.room, hf.available⟩
    · exact h.allows x hx
  free x hx := by
    rcases List.mem_cons.mp hx with rfl | hx
    · refine ⟨by rw [hf.facultyOf_eq]; exact hf.facultyFree, hf.roomFree, ?_⟩
      rw [← he.course?_id hf.course]
      exact hf.studentsFree
    · obtain ⟨hfac, hroom, hstud⟩ := h.free x hx
      rw [facultyOf_of_catalog (place_catalog t k q), place_facultyAt] at hfac
      rw [place_roomAt] at hroom
      refine ⟨getElem?_eq_none_of_insert hfac, getElem?_eq_none_of_insert hroom, fun st hst ↦ ?_⟩
      have hs := hstud st hst
      rw [place_studentAt, getElem?_foldl_insert_students] at hs
      split at hs
      · cases hs
      · exact hs
  apart := by
    refine List.Pairwise.cons (fun x hx ↦ ?_) h.apart
    -- whatever the fitting placement holds in its slot is busy for `x`
    obtain ⟨hfac, hroom, hstud⟩ := h.free x hx
    rw [facultyOf_of_catalog (place_catalog t k q), place_facultyAt,
      Std.HashMap.getElem?_insert] at hfac
    rw [place_roomAt, Std.HashMap.getElem?_insert] at hroom
    by_cases hslot : q.slot = x.2.slot
    · refine .inr ⟨fun hf' ↦ ?_, fun hr' ↦ ?_, fun st hk hx' ↦ ?_⟩
      · simp [hf', hslot] at hfac
      · simp [show q.room = x.2.room from hr', hslot] at hroom
      · have hs := hstud st hx'
        rw [place_studentAt, getElem?_foldl_insert_students, if_pos ⟨hslot.symm, hk⟩] at hs
        cases hs
    · exact .inl hslot
  underCap f hf' := by
    have hcap := h.underCap f hf'
    rw [facultyLoad_place, facultyOf_of_catalog (place_catalog t k q), place_catalog] at hcap
    rw [List.countP_cons]
    by_cases hk : t.facultyOf k.course = f <;> simp [hk] at hcap ⊢ <;> omega

end Admits

/-- The empty timetable admits the empty list: no member of staff teaches yet. -/
theorem admits_nil_empty (e : Catalog) : (empty e).Admits [] where
  allows := by simp
  free := by simp
  apart := .nil
  underCap f hf := by simpa [facultyLoad] using hf.le

/-- An accepted assignment keeps every member of staff within a positive cap. -/
theorem Admits.nil_assign {t u : Timetable} {k : SessionKey} {p : Placement} (h : t.Admits [])
    (ha : t.assign k p = .ok u) : u.Admits [] := by
  obtain ⟨hc, rfl⟩ := assign_eq_ok.mp ha
  obtain ⟨c, hf⟩ := check_eq_none_iff.mp hc
  refine ⟨by simp, by simp, .nil, fun f hpos ↦ ?_⟩
  rw [facultyLoad_place, place_catalog]
  have hcap := h.underCap f hpos
  split
  · rename_i hk
    rw [hf.facultyOf_eq] at hk
    subst hk
    have := hf.underCap hpos
    unfold facultyLoad
    simp only [List.countP_nil] at hcap ⊢
    omega
  · exact hcap

/-- The placements of a run of accepted assignments, read by course, are admitted together by the
timetable the run starts from. -/
theorem admits_of_assignAll {t u : Timetable} (he : t.catalog.Indexed) (h0 : t.Admits [])
    {L : List (SessionKey × Placement)} (h : t.assignAll L = .ok u) :
    t.Admits (L.map fun kp => (kp.1.course, kp.2)) := by
  induction L generalizing t with
  | nil => exact h0
  | cons kp L ih =>
    rw [assignAll_cons] at h
    obtain ⟨t₁, h₁, hrest⟩ := Catalog.exists_of_bind_eq_ok h
    have h₁' := h₁
    obtain ⟨hc, rfl⟩ := assign_eq_ok.mp h₁'
    obtain ⟨c, hf⟩ := check_eq_none_iff.mp hc
    exact Admits.of_place he hf (ih he (h0.nil_assign h₁) hrest)

end Timetable

end Timetabling
