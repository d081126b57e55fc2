import Timetabling.Proofs.Catalog.Index
import Timetabling.Proofs.Timetable.Count

/-! # Coherent timetables

A timetable keeps derived indexes beside its placements so that `check` costs one look-up per
resource. This file states what it means for them to be right, `Timetable.Coherent`, and proves
that placing, removing and marking sessions keep it:

* each placement is one the catalog allows (a session its course has, a known slot, a room that
  suits the course, staff available then);
* the staff, room and student indexes hold exactly the placed sessions, so each resource holds
  at most one session per slot;
* the load of each member of staff and of each slot is the number of placed sessions that count
  for it, and no member of staff is over a positive weekly cap;
* no placed session carries a reason for being unplaced.

A removal deletes index entries by owner and slot, which is right only because the entry it
deletes is the removed session's own; that is where the uniqueness of the indexes is used.

The main statements are `Timetable.Coherent.place`, `.unassign` and `.markUnscheduled`, and
`Timetable.Reachable.coherent`: every timetable reached from an empty one by these operations is
coherent. -/

namespace Timetabling

namespace Timetable

/-! ## What `check` accepts -/

/-- The weekly cap of a member of staff as checked: none (zero) for unknown staff. -/
def weeklyCap (e : Catalog) (f : String) : Int :=
  ((e.faculty? f).map (·.maxWeeklySessions)).getD 0

/-- A placement a timetable accepts now, for the session's course `c`. -/
structure Fits (t : Timetable) (k : SessionKey) (p : Placement) (c : Course) : Prop where
  course : t.catalog.course? k.course = some c
  index_nonneg : 0 ≤ k.index
  index_lt : k.index < c.sessions
  unplaced : k ∉ t.placements
  slot : (t.catalog.slot? p.slot).isSome
  room : ∃ r, t.catalog.room? p.room = some r ∧ t.catalog.roomSuits r c = true
  available : t.catalog.facultyAvailable c.facultyId p.slot = true
  facultyFree : t.facultyAt[(c.facultyId, p.slot)]? = none
  roomFree : t.roomAt[(p.room, p.slot)]? = none
  studentsFree : ∀ st ∈ t.catalog.students c.id, t.studentAt[(st, p.slot)]? = none
  underCap : 0 < weeklyCap t.catalog c.facultyId →
    ((t.facultyLoads[c.facultyId]?.getD 0 : Nat) : Int) < weeklyCap t.catalog c.facultyId

/-- `check` accepts exactly the placements that fit. -/
theorem check_eq_none_iff {t : Timetable} {k : SessionKey} {p : Placement} :
    t.check k p = none ↔ ∃ c, t.Fits k p c := by
  constructor
  · intro h
    unfold check at h
    -- each refusal is a `some`; walking past them collects the facts that make up `Fits`
    split at h
    · cases h
    rename_i c hc
    split at h
    · cases h
    rename_i hidx
    split at h
    · cases h
    rename_i hplaced
    split at h
    · cases h
    rename_i hslot
    split at h
    · cases h
    rename_i r hr
    split at h
    · cases h
    rename_i hsuits
    split at h
    · cases h
    rename_i havail
    split at h
    · cases h
    rename_i hfree
    split at h
    · cases h
    rename_i hroom
    split at h
    · cases h
    rename_i hst
    dsimp only at h
    split at h
    · cases h
    rename_i hcap
    refine ⟨c, hc, by omega, by omega, by simpa using hplaced,
      Option.isSome_iff_ne_none.mpr (by simpa using hslot),
      ⟨r, hr, by simpa using hsuits⟩, by simpa using havail, hfree, hroom, ?_, ?_⟩
    · intro st hst'
      have := List.findSome?_eq_none_iff.mp hst st hst'
      simpa using this
    · intro hpos
      simp only [weeklyCap] at hpos ⊢
      omega
  · rintro ⟨c, hc, hlo, hhi, hplaced, hslot, ⟨r, hr, hsuits⟩, havail, hfree, hroom, hst, hcap⟩
    have hnone : (t.catalog.students c.id).findSome? (fun st ↦
        t.studentAt[(st, p.slot)]?.map fun other ↦ (st, other)) = none := by
      rw [List.findSome?_eq_none_iff]
      intro st hmem
      simp [hst st hmem]
    simp only [weeklyCap] at hcap
    have hcap' : ¬ ((((t.catalog.faculty? c.facultyId).map (·.maxWeeklySessions)).getD 0) > 0 ∧
        ((t.facultyLoads[c.facultyId]?.getD 0 : Nat) : Int) ≥
          ((t.catalog.faculty? c.facultyId).map (·.maxWeeklySessions)).getD 0) := by
      intro ⟨h1, h2⟩
      have := hcap h1
      omega
    unfold check
    simp [hc, hr, hsuits, havail, hfree, hroom, hnone, hcap', hplaced, Option.isSome_iff_ne_none.mp hslot]
    omega
/-! ## Placing and removing, field by field -/

section Fields

@[simp] theorem empty_catalog (e : Catalog) : (empty e).catalog = e := rfl
@[simp] theorem empty_placements (e : Catalog) : (empty e).placements = {} := rfl
@[simp] theorem empty_facultyAt (e : Catalog) : (empty e).facultyAt = {} := rfl
@[simp] theorem empty_roomAt (e : Catalog) : (empty e).roomAt = {} := rfl
@[simp] theorem empty_studentAt (e : Catalog) : (empty e).studentAt = {} := rfl
@[simp] theorem empty_facultyLoads (e : Catalog) : (empty e).facultyLoads = {} := rfl
@[simp] theorem empty_slotLoads (e : Catalog) : (empty e).slotLoads = {} := rfl
@[simp] theorem empty_reasons (e : Catalog) : (empty e).reasons = {} := rfl

variable (t : Timetable) (k : SessionKey) (p : Placement)

@[simp] theorem place_catalog : (t.place k p).catalog = t.catalog := rfl
@[simp] theorem place_placements : (t.place k p).placements = t.placements.insert k p := rfl
@[simp] theorem place_facultyAt :
    (t.place k p).facultyAt = t.facultyAt.insert (t.facultyOf k.course, p.slot) k := rfl
@[simp] theorem place_roomAt : (t.place k p).roomAt = t.roomAt.insert (p.room, p.slot) k := rfl
@[simp] theorem place_studentAt : (t.place k p).studentAt =
    (t.catalog.students k.course).foldl (fun m st ↦ m.insert (st, p.slot) k) t.studentAt := rfl
@[simp] theorem place_facultyLoads : (t.place k p).facultyLoads =
    t.facultyLoads.insert (t.facultyOf k.course) (t.facultyLoad (t.facultyOf k.course) + 1) := rfl
@[simp] theorem place_slotLoads :
    (t.place k p).slotLoads = t.slotLoads.insert p.slot (t.slotLoad p.slot + 1) := rfl
@[simp] theorem place_reasons : (t.place k p).reasons = t.reasons.erase k := rfl

/-- The staff member of a course depends on the catalog alone. -/
theorem facultyOf_of_catalog {t t' : Timetable} (h : t'.catalog = t.catalog) :
    t'.facultyOf = t.facultyOf := by
  funext c
  simp [facultyOf, h]

variable {t k p}

/-- Removing a placed session, field by field. -/
theorem unassign_of_getElem? (h : t.placements[k]? = some p) :
    t.unassign k = (some p, { t with
      placements := t.placements.erase k
      facultyAt := t.facultyAt.erase (t.facultyOf k.course, p.slot)
      roomAt := t.roomAt.erase (p.room, p.slot)
      studentAt := (t.catalog.students k.course).foldl (fun m st ↦ m.erase (st, p.slot)) t.studentAt
      facultyLoads := t.facultyLoads.insert (t.facultyOf k.course) (t.facultyLoad (t.facultyOf k.course) - 1)
      slotLoads := t.slotLoads.insert p.slot (t.slotLoad p.slot - 1) }) := by
  simp [unassign, h, facultyLoad, slotLoad]

/-- Removing a session that is not placed changes nothing. -/
theorem unassign_of_getElem?_eq_none (h : t.placements[k]? = none) : t.unassign k = (none, t) := by
  simp [unassign, h]

@[simp] theorem unassign_catalog : (t.unassign k).2.catalog = t.catalog := by
  unfold unassign
  split <;> rfl

end Fields

/-! ## The student index

Placing a session enters it for each of its course's students in the slot; removing it deletes
those entries again. -/

theorem getElem?_foldl_insert_students (xs : List String) (slot : String) (k : SessionKey)
    (m : Std.HashMap (String × String) SessionKey) (a : String × String) :
    (xs.foldl (fun m st ↦ m.insert (st, slot) k) m)[a]? =
      if a.2 = slot ∧ a.1 ∈ xs then some k else m[a]? := by
  induction xs generalizing m with
  | nil => simp
  | cons x xs ih =>
    rw [List.foldl_cons, ih, Std.HashMap.getElem?_insert]
    obtain ⟨a1, a2⟩ := a
    by_cases h1 : a2 = slot <;> by_cases h2 : a1 = x <;> grind

theorem getElem?_foldl_erase_students (xs : List String) (slot : String)
    (m : Std.HashMap (String × String) SessionKey) (a : String × String) :
    (xs.foldl (fun m st ↦ m.erase (st, slot)) m)[a]? =
      if a.2 = slot ∧ a.1 ∈ xs then none else m[a]? := by
  induction xs generalizing m with
  | nil => simp
  | cons x xs ih =>
    rw [List.foldl_cons, ih, Std.HashMap.getElem?_erase]
    obtain ⟨a1, a2⟩ := a
    by_cases h1 : a2 = slot <;> by_cases h2 : a1 = x <;> grind

/-! ## Coherence -/

/-- The slot a session is placed in. -/
def slotOf (t : Timetable) (k : SessionKey) : Option String :=
  t.placements[k]?.map (·.slot)

/-- A placement the catalog allows for a session: the session is one its course has, the slot
and room exist, the room suits the course and its staff member is available in the slot. -/
def Admissible (e : Catalog) (k : SessionKey) (p : Placement) : Prop :=
  ∃ c, e.course? k.course = some c ∧ 0 ≤ k.index ∧ k.index < c.sessions ∧
    (e.slot? p.slot).isSome ∧ (∃ r, e.room? p.room = some r ∧ e.roomSuits r c = true) ∧
    e.facultyAvailable c.facultyId p.slot = true

/-- The indexes, loads and reasons of a timetable agree with its placements. -/
structure Coherent (t : Timetable) : Prop where
  admissible : ∀ {k p}, t.placements[k]? = some p → Admissible t.catalog k p
  facultyAt_iff : ∀ f s k, t.facultyAt[(f, s)]? = some k ↔
    t.slotOf k = some s ∧ t.facultyOf k.course = f
  roomAt_iff : ∀ r s k, t.roomAt[(r, s)]? = some k ↔ t.placements[k]? = some (⟨s, r⟩ : Placement)
  studentAt_iff : ∀ st s k, t.studentAt[(st, s)]? = some k ↔
    t.slotOf k = some s ∧ st ∈ t.catalog.students k.course
  facultyLoad_eq : ∀ f, t.facultyLoad f = t.placedCount fun k _ ↦ t.facultyOf k.course == f
  slotLoad_eq : ∀ s, t.slotLoad s = t.placedCount fun _ p ↦ p.slot == s
  facultyLoad_le : ∀ f, 0 < weeklyCap t.catalog f → (t.facultyLoad f : Int) ≤ weeklyCap t.catalog f
  reasons_unplaced : ∀ {k}, k ∈ t.reasons → k ∉ t.placements

/-- An empty timetable is coherent. -/
theorem coherent_empty (e : Catalog) : (empty e).Coherent where
  admissible h := by simp at h
  facultyAt_iff f s k := by simp [slotOf]
  roomAt_iff r s k := by simp
  studentAt_iff st s k := by simp [slotOf]
  facultyLoad_eq f := by simp [facultyLoad]
  slotLoad_eq s := by simp [slotLoad]
  facultyLoad_le f h := by simp only [facultyLoad, empty_facultyLoads, empty_catalog] at h ⊢; simp; omega
  reasons_unplaced h := by simp at h

/-! ## Placing keeps coherence -/

section Place
variable {t : Timetable} {k : SessionKey} {p : Placement} {c : Course}

theorem slotOf_place (k' : SessionKey) :
    (t.place k p).slotOf k' = if k = k' then some p.slot else t.slotOf k' := by
  simp only [slotOf, place_placements, Std.HashMap.getElem?_insert, beq_iff_eq]
  split <;> rfl

theorem Fits.facultyOf_eq (hf : t.Fits k p c) : t.facultyOf k.course = c.facultyId := by
  simp [facultyOf, hf.course]

theorem Fits.slotOf_eq_none (hf : t.Fits k p c) : t.slotOf k = none := by
  simp [slotOf, Std.HashMap.getElem?_eq_none hf.unplaced]

theorem Coherent.place_facultyAt_iff (ht : t.Coherent) (hf : t.Fits k p c) (f s : String) (k' : SessionKey) :
    (t.place k p).facultyAt[(f, s)]? = some k' ↔
      (t.place k p).slotOf k' = some s ∧ (t.place k p).facultyOf k'.course = f := by
  rw [place_facultyAt, Std.HashMap.getElem?_insert, slotOf_place,
    facultyOf_of_catalog (place_catalog t k p), hf.facultyOf_eq]
  -- the new entry is the placed session's own; any other session the entry would describe
  -- was already indexed there, and the staff member was free
  have hold := ht.facultyAt_iff f s k'
  have hfree := hf.facultyFree
  have hnone := hf.slotOf_eq_none
  have hiff := ht.facultyAt_iff c.facultyId p.slot
  have hk := hf.facultyOf_eq
  grind

theorem Coherent.place_roomAt_iff (ht : t.Coherent) (hf : t.Fits k p c) (r s : String) (k' : SessionKey) :
    (t.place k p).roomAt[(r, s)]? = some k' ↔ (t.place k p).placements[k']? = some ⟨s, r⟩ := by
  rw [place_roomAt, Std.HashMap.getElem?_insert, place_placements, Std.HashMap.getElem?_insert]
  have hold := ht.roomAt_iff r s k'
  have hfree := hf.roomFree
  have hunplaced : t.placements[k]? = none := Std.HashMap.getElem?_eq_none hf.unplaced
  have hiff := ht.roomAt_iff p.room p.slot
  obtain ⟨ps, pr⟩ := p
  grind

theorem Coherent.place_studentAt_iff (ht : t.Coherent) (he : t.catalog.Indexed) (hf : t.Fits k p c)
    (st s : String) (k' : SessionKey) :
    (t.place k p).studentAt[(st, s)]? = some k' ↔
      (t.place k p).slotOf k' = some s ∧ st ∈ (t.place k p).catalog.students k'.course := by
  rw [place_studentAt, getElem?_foldl_insert_students, slotOf_place, place_catalog]
  -- the course found for the session is the session's own course
  have hcid : c.id = k.course := he.course?_id hf.course
  have hold := ht.studentAt_iff st s k'
  have hfree := hf.studentsFree st
  have hnone := hf.slotOf_eq_none
  have hiff := ht.studentAt_iff st p.slot
  rw [hcid] at hfree
  grind

theorem facultyLoad_place (f : String) :
    (t.place k p).facultyLoad f =
      if t.facultyOf k.course = f then t.facultyLoad f + 1 else t.facultyLoad f := by
  simp only [facultyLoad, place_facultyLoads, Std.HashMap.getElem?_insert, beq_iff_eq]
  split
  · rename_i h
    subst h
    simp
  · rfl

theorem slotLoad_place (s : String) :
    (t.place k p).slotLoad s = if p.slot = s then t.slotLoad s + 1 else t.slotLoad s := by
  simp only [slotLoad, place_slotLoads, Std.HashMap.getElem?_insert, beq_iff_eq]
  split
  · rename_i h
    subst h
    simp
  · rfl

/-- Placing a session that is not placed yet counts it once. -/
theorem placedCount_place (hk : k ∉ t.placements) (q : SessionKey → Placement → Bool) :
    (t.place k p).placedCount q = t.placedCount q + if q k p then 1 else 0 :=
  placedCount_insert p hk q

theorem Coherent.place_facultyLoad_eq (ht : t.Coherent) (hf : t.Fits k p c) (f : String) :
    (t.place k p).facultyLoad f =
      (t.place k p).placedCount fun k' _ ↦ (t.place k p).facultyOf k'.course == f := by
  rw [facultyLoad_place, placedCount_place hf.unplaced, facultyOf_of_catalog (place_catalog t k p),
    ← ht.facultyLoad_eq f]
  split <;> simp [*]

theorem Coherent.place_slotLoad_eq (ht : t.Coherent) (hf : t.Fits k p c) (s : String) :
    (t.place k p).slotLoad s = (t.place k p).placedCount fun _ p' ↦ p'.slot == s := by
  rw [slotLoad_place, placedCount_place hf.unplaced, ← ht.slotLoad_eq s]
  split <;> simp [*]

theorem Coherent.place_facultyLoad_le (ht : t.Coherent) (hf : t.Fits k p c) (f : String)
    (hcap : 0 < weeklyCap (t.place k p).catalog f) :
    ((t.place k p).facultyLoad f : Int) ≤ weeklyCap (t.place k p).catalog f := by
  rw [place_catalog] at hcap ⊢
  rw [facultyLoad_place, hf.facultyOf_eq]
  split
  · -- the placed session's staff member was below the cap, as `check` required
    rename_i h
    subst h
    have := hf.underCap hcap
    simp only [facultyLoad] at this ⊢
    omega
  · exact ht.facultyLoad_le f hcap

theorem Coherent.place_admissible (ht : t.Coherent) (hf : t.Fits k p c) {k' : SessionKey}
    {p' : Placement} (h : (t.place k p).placements[k']? = some p') :
    Admissible (t.place k p).catalog k' p' := by
  rw [place_placements, Std.HashMap.getElem?_insert] at h
  split at h
  · rename_i hk
    cases (beq_iff_eq.mp hk)
    cases h
    exact ⟨c, hf.course, hf.index_nonneg, hf.index_lt, hf.slot, hf.room, hf.available⟩
  · exact ht.admissible h

/-- Placing a session that fits keeps a timetable coherent. -/
theorem Coherent.place (ht : t.Coherent) (he : t.catalog.Indexed) (hf : t.Fits k p c) :
    (t.place k p).Coherent where
  admissible h := ht.place_admissible hf h
  facultyAt_iff := ht.place_facultyAt_iff hf
  roomAt_iff := ht.place_roomAt_iff hf
  studentAt_iff := ht.place_studentAt_iff he hf
  facultyLoad_eq := ht.place_facultyLoad_eq hf
  slotLoad_eq := ht.place_slotLoad_eq hf
  facultyLoad_le := ht.place_facultyLoad_le hf
  reasons_unplaced {k'} h := by
    rw [place_reasons, Std.HashMap.mem_erase] at h
    rw [place_placements, Std.HashMap.mem_insert, not_or]
    exact ⟨by simpa using h.1, ht.reasons_unplaced h.2⟩

end Place

/-! ## Removing keeps coherence -/

section Unassign

variable {t : Timetable} {k : SessionKey} {p : Placement}

theorem slotOf_unassign (hp : t.placements[k]? = some p) (k' : SessionKey) :
    (t.unassign k).2.slotOf k' = if k = k' then none else t.slotOf k' := by
  rw [unassign_of_getElem? hp]
  simp only [slotOf, Std.HashMap.getElem?_erase, beq_iff_eq]
  split <;> rfl

theorem facultyLoad_unassign (hp : t.placements[k]? = some p) (f : String) :
    (t.unassign k).2.facultyLoad f =
      if t.facultyOf k.course = f then t.facultyLoad f - 1 else t.facultyLoad f := by
  rw [unassign_of_getElem? hp]
  simp only [facultyLoad, Std.HashMap.getElem?_insert, beq_iff_eq]
  split
  · rename_i h
    subst h
    simp
  · rfl

theorem slotLoad_unassign (hp : t.placements[k]? = some p) (s : String) :
    (t.unassign k).2.slotLoad s = if p.slot = s then t.slotLoad s - 1 else t.slotLoad s := by
  rw [unassign_of_getElem? hp]
  simp only [slotLoad, Std.HashMap.getElem?_insert, beq_iff_eq]
  split
  · rename_i h
    subst h
    simp
  · rfl

/-- Removing a placed session takes it out of every count it passes. -/
theorem placedCount_unassign (hp : t.placements[k]? = some p) (q : SessionKey → Placement → Bool) :
    t.placedCount q = (t.unassign k).2.placedCount q + if q k p then 1 else 0 := by
  rw [placedCount_erase hp q, unassign_of_getElem? hp]
  rfl

variable (ht : t.Coherent) (hp : t.placements[k]? = some p)
include ht hp

/-- The removed session's own entry in the staff index. -/
theorem Coherent.facultyAt_self : t.facultyAt[(t.facultyOf k.course, p.slot)]? = some k :=
  (ht.facultyAt_iff _ _ k).mpr ⟨by simp [slotOf, hp], rfl⟩

theorem Coherent.unassign_facultyAt_iff (f s : String) (k' : SessionKey) :
    (t.unassign k).2.facultyAt[(f, s)]? = some k' ↔
      (t.unassign k).2.slotOf k' = some s ∧ (t.unassign k).2.facultyOf k'.course = f := by
  rw [slotOf_unassign hp, facultyOf_of_catalog unassign_catalog, unassign_of_getElem? hp]
  simp only [Std.HashMap.getElem?_erase]
  -- the deleted entry is the removed session's own, so no other session loses its entry
  have hold := ht.facultyAt_iff f s k'
  have hiff := ht.facultyAt_iff (t.facultyOf k.course) p.slot
  have hself := ht.facultyAt_self hp
  have hslot : t.slotOf k = some p.slot := by simp [slotOf, hp]
  grind

theorem Coherent.unassign_roomAt_iff (r s : String) (k' : SessionKey) :
    (t.unassign k).2.roomAt[(r, s)]? = some k' ↔
      (t.unassign k).2.placements[k']? = some ⟨s, r⟩ := by
  rw [unassign_of_getElem? hp]
  simp only [Std.HashMap.getElem?_erase]
  have hold := ht.roomAt_iff r s k'
  have hiff := ht.roomAt_iff p.room p.slot
  obtain ⟨ps, pr⟩ := p
  have hself := (ht.roomAt_iff pr ps k).mpr hp
  grind

theorem Coherent.unassign_studentAt_iff (st s : String) (k' : SessionKey) :
    (t.unassign k).2.studentAt[(st, s)]? = some k' ↔
      (t.unassign k).2.slotOf k' = some s ∧ st ∈ (t.unassign k).2.catalog.students k'.course := by
  rw [slotOf_unassign hp, unassign_catalog, unassign_of_getElem? hp]
  simp only [getElem?_foldl_erase_students]
  have hold := ht.studentAt_iff st s k'
  have hiff := ht.studentAt_iff st p.slot
  have hslot : t.slotOf k = some p.slot := by simp [slotOf, hp]
  grind

theorem Coherent.unassign_facultyLoad_eq (f : String) :
    (t.unassign k).2.facultyLoad f =
      (t.unassign k).2.placedCount fun k' _ ↦ (t.unassign k).2.facultyOf k'.course == f := by
  have hcount := placedCount_unassign hp fun k' _ ↦ t.facultyOf k'.course == f
  rw [facultyLoad_unassign hp, facultyOf_of_catalog unassign_catalog, ht.facultyLoad_eq f]
  split <;> simp_all

theorem Coherent.unassign_slotLoad_eq (s : String) :
    (t.unassign k).2.slotLoad s = (t.unassign k).2.placedCount fun _ p' ↦ p'.slot == s := by
  have hcount := placedCount_unassign hp fun _ p' ↦ p'.slot == s
  rw [slotLoad_unassign hp, ht.slotLoad_eq s]
  split <;> simp_all

/-- Removing a placed session keeps a timetable coherent. -/
theorem Coherent.unassign_of_placed : (t.unassign k).2.Coherent where
  admissible {k' p'} h := by
    rw [unassign_catalog]
    rw [unassign_of_getElem? hp] at h
    simp only [Std.HashMap.getElem?_erase] at h
    split at h
    · cases h
    · exact ht.admissible h
  facultyAt_iff := ht.unassign_facultyAt_iff hp
  roomAt_iff := ht.unassign_roomAt_iff hp
  studentAt_iff := ht.unassign_studentAt_iff hp
  facultyLoad_eq := ht.unassign_facultyLoad_eq hp
  slotLoad_eq := ht.unassign_slotLoad_eq hp
  facultyLoad_le f hcap := by
    rw [unassign_catalog] at hcap ⊢
    have := ht.facultyLoad_le f hcap
    rw [facultyLoad_unassign hp]
    split <;> omega
  reasons_unplaced {k'} h := by
    rw [unassign_of_getElem? hp] at h ⊢
    exact fun hk ↦ ht.reasons_unplaced h (Std.HashMap.mem_of_mem_erase hk)

end Unassign

/-- Removing a session keeps a timetable coherent, whether it was placed or not. -/
theorem Coherent.unassign {t : Timetable} (ht : t.Coherent) (k : SessionKey) :
    (t.unassign k).2.Coherent := by
  cases hp : t.placements[k]? with
  | none => rw [unassign_of_getElem?_eq_none hp]; exact ht
  | some p => exact ht.unassign_of_placed hp

/-- Marking a session keeps a timetable coherent: a placed session is never marked. -/
theorem Coherent.markUnscheduled {t : Timetable} (ht : t.Coherent) (k : SessionKey) (r : String) :
    (t.markUnscheduled k r).Coherent := by
  unfold Timetable.markUnscheduled
  split
  · exact ht
  · rename_i hk
    exact { ht with
      reasons_unplaced := fun {k'} h ↦ by
        rw [Std.HashMap.mem_insert] at h
        rcases h with h | h
        · cases (beq_iff_eq.mp h)
          simpa using hk
        · exact ht.reasons_unplaced h }

/-! ## Reachable timetables -/

/-- `assign` commits exactly the placements that fit. -/
theorem assign_eq_ok {t t' : Timetable} {k : SessionKey} {p : Placement} :
    t.assign k p = .ok t' ↔ t.check k p = none ∧ t.place k p = t' := by
  unfold assign
  split <;> simp_all

/-- A refused placement leaves the timetable as it was. -/
theorem assign_eq_error {t : Timetable} {k : SessionKey} {p : Placement} {c : Conflict} :
    t.assign k p = .error c ↔ t.check k p = some c := by
  unfold assign
  split <;> simp_all

/-- The timetables reached from the empty timetable of an indexed catalog by placing, removing
and marking sessions. A refused placement leaves its timetable as it was, so it adds nothing. -/
inductive Reachable : Timetable → Prop
  | empty {e : Catalog} : e.Indexed → Reachable (empty e)
  | assign {t t' : Timetable} {k : SessionKey} {p : Placement} :
      Reachable t → t.assign k p = .ok t' → Reachable t'
  | unassign {t : Timetable} (k : SessionKey) : Reachable t → Reachable (t.unassign k).2
  | markUnscheduled {t : Timetable} (k : SessionKey) (r : String) :
      Reachable t → Reachable (t.markUnscheduled k r)

namespace Reachable

/-- A reachable timetable is over an indexed catalog. -/
theorem indexed {t : Timetable} (h : Reachable t) : t.catalog.Indexed := by
  induction h with
  | empty he => exact he
  | assign _ ha ih =>
    obtain ⟨-, rfl⟩ := assign_eq_ok.mp ha
    exact ih
  | unassign k _ ih => rwa [unassign_catalog]
  | markUnscheduled k r _ ih =>
    unfold Timetable.markUnscheduled
    split <;> exact ih

/-- Every reachable timetable is coherent. -/
theorem coherent {t : Timetable} (h : Reachable t) : t.Coherent := by
  induction h with
  | empty _ => exact coherent_empty _
  | assign hr ha ih =>
    obtain ⟨hc, rfl⟩ := assign_eq_ok.mp ha
    obtain ⟨c, hf⟩ := check_eq_none_iff.mp hc
    exact ih.place hr.indexed hf
  | unassign k _ ih => exact ih.unassign k
  | markUnscheduled k r _ ih => exact ih.markUnscheduled k r

/-- Placing a session keeps a timetable reachable, whether the placement is accepted or not. -/
theorem assignOr {t : Timetable} (h : Reachable t) (k : SessionKey) (p : Placement) :
    Reachable (match t.assign k p with
      | .ok t' => t'
      | .error _ => t) := by
  cases ha : t.assign k p with
  | ok t' => exact h.assign ha
  | error c => exact h

end Reachable

end Timetable

end Timetabling
