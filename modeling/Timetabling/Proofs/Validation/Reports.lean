import Timetabling.Proofs.Timetable.Session
import Timetabling.Validation

/-! # What validation reports on a timetable built by editing

Validation checks every hard constraint again from the placements alone. On a timetable reached
from the empty one by `assign`, `unassign` and `markUnscheduled`, the checks `assign` made leave
almost nothing for it to find: no clash, no unknown record, no session number out of range, no
staff member over their cap, and no unsuitable room, except in one case. `assign` reads feature
names through name sets, which drop the empty name, while validation compares the raw lists; a
course that lists the empty feature name, placed in a room whose record does not, passes `assign`
and fails validation (`blankFeatureReport`).

So the violations of such a timetable are exactly those blank-feature reports, in key order,
followed by one report per missing session without a reason (`violations_of_reachable`).

The validator's bookkeeping is followed through its fold over the placed sessions with the
invariant `Validator.Checked`: what it has booked and counted is what the sessions checked so far
determine, and it has found only their blank-feature reports. -/

namespace Timetabling

namespace Timetable

/-- The violation validation reports for a placed session whose course lists the empty feature
name and whose room's record lacks it. -/
def blankFeatureReport (t : Timetable) (k : SessionKey) : Option Violation :=
  match t.catalog.course? k.course, (t.lookup k).bind fun p ↦ t.catalog.room? p.room with
  | some c, some r =>
    let lacking := String.intercalate "," (c.requiredFeatures.filter (· == ""))
    if "" ∈ c.requiredFeatures ∧ "" ∉ r.features then
      some { kind := .capacity, key := k, message := s!"room {r.id} lacks features {lacking}" }
    else none
  | _, _ => none

/-- The report of a session that is neither placed nor given a reason. -/
def unreportedViolation (k : SessionKey) : Violation :=
  { kind := .unknown, key := k, message := s!"session {k.text} neither assigned nor reported unscheduled" }

/-- The reports of the missing sessions without a reason, in catalog order. -/
def unreported (t : Timetable) : List Violation :=
  (t.missing.filter fun k ↦ (t.reason? k).isNone).map unreportedViolation

end Timetable

namespace Validator

@[simp] theorem add_staffAt (v : Validator) (kind : ConflictKind) (k : SessionKey)
    (o : Option SessionKey) (m : String) : (v.add kind k o m).staffAt = v.staffAt := rfl
@[simp] theorem add_roomAt (v : Validator) (kind : ConflictKind) (k : SessionKey)
    (o : Option SessionKey) (m : String) : (v.add kind k o m).roomAt = v.roomAt := rfl
@[simp] theorem add_studentAt (v : Validator) (kind : ConflictKind) (k : SessionKey)
    (o : Option SessionKey) (m : String) : (v.add kind k o m).studentAt = v.studentAt := rfl
@[simp] theorem add_loads (v : Validator) (kind : ConflictKind) (k : SessionKey)
    (o : Option SessionKey) (m : String) : (v.add kind k o m).loads = v.loads := rfl
@[simp] theorem add_found (v : Validator) (kind : ConflictKind) (k : SessionKey)
    (o : Option SessionKey) (m : String) :
    (v.add kind k o m).found = v.found ++ [{ kind, key := k, other := o, message := m }] := rfl

/-- Booking students none of whom is booked in the slot yet, and none twice, books them all and
reports nothing. -/
theorem bookStudents_of_free (k : SessionKey) (slot : String) :
    ∀ (sts : List String) (v : Validator), sts.Nodup →
      (∀ st ∈ sts, v.studentAt[(st, slot)]? = none) →
      v.bookStudents k slot sts =
        { v with studentAt := sts.foldl (fun m st ↦ m.insert (st, slot) k) v.studentAt }
  | [], _, _, _ => rfl
  | st :: rest, v, hnd, hfree => by
    have hst : v.studentAt[(st, slot)]? = none := hfree st (List.mem_cons_self ..)
    obtain ⟨hnew, hrest⟩ := List.nodup_cons.mp hnd
    rw [bookStudents, hst]
    -- the students after `st` are still free once `st` is booked, since none of them is `st`
    refine bookStudents_of_free k slot rest _ hrest fun st' hst' ↦ ?_
    have hne : st ≠ st' := fun h ↦ hnew (h ▸ hst')
    simp [Std.HashMap.getElem?_insert, hne, hfree st' (List.mem_cons_of_mem _ hst')]

/-- A validator that has checked the placed sessions `done` of a timetable, in that order: it has
booked each of them for its staff member, room and students in its slot, counted each for its
staff member, and found only their blank-feature reports. -/
structure Checked (t : Timetable) (done : List SessionKey) (v : Validator) : Prop where
  staffAt : ∀ {f s k}, v.staffAt[(f, s)]? = some k →
    k ∈ done ∧ t.slotOf k = some s ∧ t.facultyOf k.course = f
  roomAt : ∀ {r s k}, v.roomAt[(r, s)]? = some k → k ∈ done ∧ t.placements[k]? = some ⟨s, r⟩
  studentAt : ∀ {st s k}, v.studentAt[(st, s)]? = some k →
    k ∈ done ∧ t.slotOf k = some s ∧ st ∈ t.catalog.students k.course
  loads : ∀ f, v.loads[f]?.getD 0 = done.countP fun k ↦ t.facultyOf k.course == f
  found : v.found = done.filterMap t.blankFeatureReport

theorem checked_empty (t : Timetable) : ({} : Validator).Checked t [] where
  staffAt h := by simp at h
  roomAt h := by simp at h
  studentAt h := by simp at h
  loads _ := by simp
  found := rfl

end Validator

namespace Catalog

/-- The required features a suitable room's record lacks: none of the non-empty names, so only
the empty name, as often as the course lists it, when the room does not list it too. -/
theorem Indexed.missingFeatures_of_roomSuits {e : Catalog} (he : e.Indexed) {r : Room} {c : Course}
    (hr : r ∈ e.rooms.toList) (hc : c ∈ e.courses.toList) (hs : e.roomSuits r c = true) :
    r.missingFeatures c = if "" ∈ r.features then [] else c.requiredFeatures.filter (· == "") := by
  have hfeat : ∀ x ∈ c.requiredFeatures, x ≠ "" → x ∈ r.features := by
    unfold roomSuits at hs
    rw [he.roomFeatures_self hr, he.featureSets_self hc] at hs
    intro x hx hne
    simp only [Bool.and_eq_true, List.all_eq_true, Std.HashSet.mem_toList, Option.getD_some,
      Std.HashSet.contains_iff_mem, mem_nameSet] at hs
    exact (hs.2 x ⟨hne, hx⟩).2
  unfold Room.missingFeatures
  split
  · -- the room lists every required name, the empty one included
    rename_i hblank
    rw [List.filter_eq_nil_iff.mpr fun x hx ↦ ?_]
    · simp [sortStrings, stableSort]
    by_cases hx' : x = ""
    · subst hx'
      simpa using hblank
    · simpa using hfeat x hx hx'
  · -- only the empty name is missing, and a list of empty names is already sorted
    rename_i hblank
    have hfilter : c.requiredFeatures.filter (fun f ↦ !r.features.contains f) =
        c.requiredFeatures.filter (· == "") := by
      refine List.filter_congr fun x hx ↦ ?_
      by_cases hx' : x = ""
      · subst hx'
        simpa using hblank
      · simp [hx', hfeat x hx hx']
    rw [hfilter, List.filter_beq, sortStrings, stableSort]
    exact List.mergeSort_of_pairwise (List.pairwise_replicate.mpr (.inr (by decide)))

end Catalog

namespace Timetable

/-- On a session placed in a suitable room, the blank-feature report is what validation's feature
check reports. -/
theorem blankFeatureReport_of_roomSuits {t : Timetable} (he : t.catalog.Indexed) {k : SessionKey}
    {p : Placement} {c : Course} {r : Room} (hp : t.placements[k]? = some p)
    (hc : t.catalog.course? k.course = some c) (hr : t.catalog.room? p.room = some r)
    (hs : t.catalog.roomSuits r c = true) :
    t.blankFeatureReport k =
      let lacking := String.intercalate "," (r.missingFeatures c)
      if (r.missingFeatures c).isEmpty then none
      else some { kind := .capacity, key := k, message := s!"room {r.id} lacks features {lacking}" } := by
  rw [he.missingFeatures_of_roomSuits (he.room?_id hr).2 (Catalog.mem_of_course? hc) hs]
  unfold blankFeatureReport
  simp only [lookup, hp, Option.bind_some, hc, hr]
  by_cases hb : "" ∈ r.features <;> by_cases hreq : "" ∈ c.requiredFeatures <;>
    simp [hb, hreq, List.filter_eq_nil_iff]

end Timetable

namespace Validator

variable {t : Timetable} {done : List SessionKey} {v : Validator} {k : SessionKey} {p : Placement}

theorem Checked.checkPlacement (ht : t.Coherent) (he : t.catalog.Indexed) (hv : v.Checked t done)
    (hk : k ∉ done) (hp : t.placements[k]? = some p) :
    (t.checkPlacement v k).Checked t (done ++ [k]) := by
  obtain ⟨c, hc, h0, hlt, hslot, ⟨r, hr, hsuit⟩, havail⟩ := ht.admissible hp
  -- every check `assign` made passes again
  have hslot' : (t.catalog.slot? p.slot).isNone = false := by
    cases h : t.catalog.slot? p.slot <;> simp_all
  have hcap : ¬ r.capacity < (t.catalog.enrollment c.id : Int) := by
    unfold Catalog.roomSuits at hsuit
    simp only [Bool.and_eq_true, decide_eq_true_eq] at hsuit
    omega
  have hidx : ¬ (k.index < 0 ∨ k.index ≥ c.sessions) := by omega
  -- and nothing is booked yet where this session goes, since bookings are exclusive
  have hfac : t.facultyOf k.course = c.facultyId := by simp [Timetable.facultyOf, hc]
  have hslotOf : t.slotOf k = some p.slot := by simp [Timetable.slotOf, hp]
  have hcid : c.id = k.course := he.course?_id hc
  obtain ⟨hrid, -⟩ := he.room?_id hr
  have hx := ht.exclusive
  have hstaff : v.staffAt[(c.facultyId, p.slot)]? = none := by
    cases h : v.staffAt[(c.facultyId, p.slot)]? with
    | none => rfl
    | some k' =>
      obtain ⟨hk', hs', hf'⟩ := hv.staffAt h
      have := hx.faculty hslotOf hs' (hfac.trans hf'.symm)
      subst this
      exact absurd hk' hk
  have hroom : v.roomAt[(r.id, p.slot)]? = none := by
    cases h : v.roomAt[(r.id, p.slot)]? with
    | none => rfl
    | some k' =>
      obtain ⟨hk', hp'⟩ := hv.roomAt h
      have := hx.room hp (by rw [hp', hrid])
      subst this
      exact absurd hk' hk
  have hstud : ∀ st ∈ t.catalog.students c.id, v.studentAt[(st, p.slot)]? = none := by
    intro st hst
    cases h : v.studentAt[(st, p.slot)]? with
    | none => rfl
    | some k' =>
      obtain ⟨hk', hs', hst'⟩ := hv.studentAt h
      have := hx.student hslotOf hs' (hcid ▸ hst) hst'
      subst this
      exact absurd hk' hk
  unfold Timetable.checkPlacement
  simp only [Timetable.lookup, hp, Option.getD_some, hc, hr, hsuit, hslot', hcap, hidx, havail,
    Bool.not_true, Bool.false_and, Bool.false_eq_true, if_false, apply_ite Validator.staffAt,
    apply_ite Validator.roomAt, apply_ite Validator.studentAt, apply_ite Validator.loads,
    add_staffAt, add_roomAt, add_studentAt, add_loads, ite_self, hstaff, hroom]
  rw [bookStudents_of_free k p.slot _ _ (he.students_nodup _) ?free]
  case free => exact hstud
  refine ⟨fun {f s k'} h ↦ ?_, fun {rm s k'} h ↦ ?_, fun {st s k'} h ↦ ?_, fun f ↦ ?_, ?_⟩
  · -- staff: the new booking is this session's, the others are the old ones
    dsimp only at h
    rw [Std.HashMap.getElem?_insert] at h
    split at h
    · rename_i heq
      obtain ⟨rfl, rfl⟩ := Prod.mk.inj (beq_iff_eq.mp heq)
      cases h
      exact ⟨List.mem_append_right _ (List.mem_singleton_self _), hslotOf, hfac⟩
    · obtain ⟨hk', hs', hf'⟩ := hv.staffAt h
      exact ⟨List.mem_append_left _ hk', hs', hf'⟩
  · -- rooms
    dsimp only at h
    rw [Std.HashMap.getElem?_insert] at h
    split at h
    · rename_i heq
      obtain ⟨rfl, rfl⟩ := Prod.mk.inj (beq_iff_eq.mp heq)
      cases h
      refine ⟨List.mem_append_right _ (List.mem_singleton_self _), ?_⟩
      rw [hrid]
      exact hp
    · obtain ⟨hk', hp'⟩ := hv.roomAt h
      exact ⟨List.mem_append_left _ hk', hp'⟩
  · -- students
    dsimp only at h
    rw [Timetable.getElem?_foldl_insert_students] at h
    split at h
    · rename_i hnew
      obtain ⟨rfl, hst⟩ := hnew
      cases h
      exact ⟨List.mem_append_right _ (List.mem_singleton_self _), hslotOf, hcid ▸ hst⟩
    · obtain ⟨hk', hs', hst'⟩ := hv.studentAt h
      exact ⟨List.mem_append_left _ hk', hs', hst'⟩
  · -- loads: one more session for this staff member
    dsimp only
    rw [List.countP_append, ← hv.loads f, Std.HashMap.getElem?_insert]
    by_cases hf : c.facultyId = f
    · subst hf
      simp [hfac]
    · simp [hf, hfac]
  · -- reports: the feature check's, which is this session's blank-feature report
    dsimp only
    rw [List.filterMap_append, ← hv.found, List.filterMap_cons, List.filterMap_nil,
      Timetable.blankFeatureReport_of_roomSuits he hp hc hr hsuit]
    split <;> simp_all

/-- Checking placed sessions one after another, none of them twice, keeps a validator `Checked`. -/
theorem Checked.foldl_checkPlacement (ht : t.Coherent) (he : t.catalog.Indexed) :
    ∀ (ks : List SessionKey) {done : List SessionKey} {v : Validator}, v.Checked t done →
      (done ++ ks).Nodup → (∀ k ∈ ks, k ∈ t.placements) →
      (ks.foldl t.checkPlacement v).Checked t (done ++ ks)
  | [], _, _, hv, _, _ => by simpa using hv
  | k :: ks, done, v, hv, hnd, hks => by
    obtain ⟨p, hp⟩ := Option.isSome_iff_exists.mp
      (Std.HashMap.mem_iff_isSome_getElem?.mp (hks k (List.mem_cons_self ..)))
    have hk : k ∉ done := fun h ↦
      (List.nodup_cons.mp (List.nodup_middle.mp hnd)).1 (List.mem_append_left _ h)
    rw [List.append_cons] at hnd ⊢
    exact foldl_checkPlacement ht he ks (hv.checkPlacement ht he hk hp) hnd
      fun k' hk' ↦ hks k' (List.mem_cons_of_mem _ hk')

end Validator

namespace Timetable

/-- The placed sessions in key order are the placed sessions. -/
theorem keys_perm (t : Timetable) : t.keys.Perm t.placements.keys :=
  List.mergeSort_perm _ _

/-- Counting placed sessions in key order is counting the placements. -/
theorem countP_keys (t : Timetable) (q : SessionKey → Bool) :
    t.keys.countP q = t.placedCount fun k _ ↦ q k := by
  rw [t.keys_perm.countP_eq, ← Std.HashMap.map_fst_toList_eq_keys, List.countP_map]
  rfl

/-- The validator's fold over the placed sessions of a coherent timetable checks each once. -/
theorem Coherent.checked_keys {t : Timetable} (ht : t.Coherent) (he : t.catalog.Indexed) :
    (t.keys.foldl t.checkPlacement {}).Checked t t.keys := by
  have hnd : t.keys.Nodup := t.keys_perm.nodup_iff.mpr Std.HashMap.nodup_keys
  exact Validator.Checked.foldl_checkPlacement ht he t.keys (Validator.checked_empty t) hnd
    fun k hk ↦ Std.HashMap.mem_keys.mp (t.keys_perm.mem_iff.mp hk)

/-- Staff within their caps add no report to the cap checks. -/
theorem foldl_capCheck_of_within (t : Timetable) :
    ∀ (fs : List Faculty) (v : Validator),
      (∀ f ∈ fs, f.maxWeeklySessions > 0 → ((v.loads[f.id]?.getD 0 : Nat) : Int) ≤ f.maxWeeklySessions) →
      fs.foldl (fun v f =>
        let load : Nat := v.loads[f.id]?.getD 0
        if f.maxWeeklySessions > 0 ∧ (load : Int) > f.maxWeeklySessions then
          v.add .facultyCap ⟨"", 0⟩ none s!"faculty {f.id} teaches {load} sessions, cap {f.maxWeeklySessions}"
        else v) v = v
  | [], _, _ => rfl
  | f :: fs, v, hfs => by
    have hf : ¬ (f.maxWeeklySessions > 0 ∧ ((v.loads[f.id]?.getD 0 : Nat) : Int) > f.maxWeeklySessions) :=
      fun h ↦ absurd (hfs f (List.mem_cons_self ..) h.1) (Int.not_le.mpr h.2)
    rw [List.foldl_cons, if_neg hf]
    exact foldl_capCheck_of_within t fs v fun f' hf' ↦ hfs f' (List.mem_cons_of_mem _ hf')

/-- The missing-session checks report the missing sessions without a reason, in order. -/
theorem found_foldl_missingCheck (t : Timetable) :
    ∀ (ks : List SessionKey) (v : Validator),
      (ks.foldl (fun v k =>
        if (t.reason? k).isSome then v
        else v.add .unknown k none s!"session {k.text} neither assigned nor reported unscheduled") v).found =
        v.found ++ (ks.filter fun k ↦ (t.reason? k).isNone).map unreportedViolation
  | [], _ => by simp
  | k :: ks, v => by
    rw [List.foldl_cons, found_foldl_missingCheck t ks]
    cases hr : t.reason? k with
    | none => simp [hr, unreportedViolation]
    | some r => simp [hr]

/-- The violations of a timetable built by editing: the blank-feature reports of its placed
sessions in key order, then one report per missing session without a reason. -/
theorem Reachable.violations_eq {t : Timetable} (h : t.Reachable) :
    t.violations = t.keys.filterMap t.blankFeatureReport ++ t.unreported := by
  have ht := h.coherent
  have he := h.indexed
  have hchecked := ht.checked_keys he
  -- the cap checks find every staff member within their cap, by the timetable's own loads
  have hcaps : ∀ f ∈ t.catalog.facultyList, f.maxWeeklySessions > 0 →
      (((t.keys.foldl t.checkPlacement {}).loads[f.id]?.getD 0 : Nat) : Int) ≤ f.maxWeeklySessions := by
    intro f hf hpos
    have hcap : weeklyCap t.catalog f.id = f.maxWeeklySessions := by
      simp [weeklyCap, he.faculty?_self hf]
    rw [hchecked.loads f.id, countP_keys, ← ht.facultyLoad_eq f.id, ← hcap]
    exact ht.facultyLoad_le f.id (hcap ▸ hpos)
  have hcapFold := foldl_capCheck_of_within t _ _ hcaps
  unfold violations
  dsimp only at hcapFold ⊢
  rw [hcapFold, found_foldl_missingCheck, hchecked.found]
  rfl

/-- Validation passes exactly when it reports nothing. -/
theorem validate_eq_ok_iff (t : Timetable) : t.validate = .ok () ↔ t.violations = [] := by
  unfold validate
  split <;> simp_all

/-- A timetable built by editing passes validation exactly when no placed session has a
blank-feature report and every missing session has a reason. -/
theorem Reachable.validate_eq_ok_iff {t : Timetable} (h : t.Reachable) :
    t.validate = .ok () ↔
      (∀ k ∈ t.keys, t.blankFeatureReport k = none) ∧ ∀ k ∈ t.missing, (t.reason? k).isSome := by
  rw [Timetable.validate_eq_ok_iff, h.violations_eq, List.append_eq_nil_iff,
    List.filterMap_eq_nil_iff, unreported, List.map_eq_nil_iff, List.filter_eq_nil_iff]
  simp [Option.ne_none_iff_isSome]

/-- On a timetable built from accepted records by placing, removing and marking sessions,
validation reports only what `assign` could not see: a placed session whose course lists the
empty feature name in a room whose record does not, and a missing session without a reason, one
report each. It passes exactly when there are neither. -/
theorem violations_of_reachable {t : Timetable} (h : t.Reachable) :
    t.violations = t.keys.filterMap t.blankFeatureReport ++ t.unreported ∧
      (t.validate = .ok () ↔
        (∀ k ∈ t.keys, t.blankFeatureReport k = none) ∧ ∀ k ∈ t.missing, (t.reason? k).isSome) :=
  ⟨h.violations_eq, h.validate_eq_ok_iff⟩

/-! ## A course that lists the empty feature name -/

/-- Records whose one course lists the empty feature name and whose one room lists no feature. -/
def blankFeatureRecords : Dataset :=
  { courses := [{ id := "c", facultyId := "f", sessions := 1, requiredFeatures := [""] }],
    faculty := [{ id := "f" }], rooms := [{ id := "r", capacity := 10 }],
    timeSlots := [{ id := "s" }] }

/-- The records are accepted, their course and room are found under their ids, and the course's
one session may take the room in the slot. -/
theorem build_blankFeatureRecords :
    ∃ e, Catalog.build blankFeatureRecords = .ok e ∧
      e.courses = #[{ id := "c", facultyId := "f", sessions := 1, requiredFeatures := [""] }] ∧
      e.course? "c" = some { id := "c", facultyId := "f", sessions := 1, requiredFeatures := [""] } ∧
      e.room? "r" = some { id := "r", capacity := 10 } ∧
      (empty e).check ⟨"c", 0⟩ ⟨"s", "r"⟩ = none := by
  cases hb : Catalog.build blankFeatureRecords with
  | error err =>
    simp [blankFeatureRecords, Catalog.build, Catalog.indexFaculty, Catalog.indexSlots,
      Catalog.indexRooms, Catalog.indexCourses, Catalog.courseStudents, stableSort, dedupStrings,
      sortStrings] at hb
    cases hb
  | ok e =>
    refine ⟨e, rfl, ?_⟩
    simp [blankFeatureRecords, Catalog.build, Catalog.indexFaculty, Catalog.indexSlots,
      Catalog.indexRooms, Catalog.indexCourses, Catalog.courseStudents, stableSort, dedupStrings,
      sortStrings] at hb
    cases hb
    simp [check, empty, Catalog.course?, Catalog.room?, Catalog.slot?, Catalog.roomSuits,
      Catalog.facultyAvailable, Catalog.students, Catalog.enrollment, Catalog.faculty?,
      Catalog.nameSet]

/-- The timetable of the records with their one session placed satisfies the characterisation
of validation. -/
theorem violations_of_reachable_blankFeatureRecords :
    ∃ e t, Catalog.build blankFeatureRecords = .ok e ∧
      (empty e).assign ⟨"c", 0⟩ ⟨"s", "r"⟩ = .ok t ∧ t.Reachable ∧
      (t.violations = t.keys.filterMap t.blankFeatureReport ++ t.unreported ∧
        (t.validate = .ok () ↔
          (∀ k ∈ t.keys, t.blankFeatureReport k = none) ∧ ∀ k ∈ t.missing, (t.reason? k).isSome)) := by
  obtain ⟨e, hb, -, -, -, hcheck⟩ := build_blankFeatureRecords
  have ha := assign_eq_ok.mpr ⟨hcheck, rfl⟩
  have hr : Reachable _ := .assign (.empty (Catalog.indexed_of_build hb)) ha
  exact ⟨e, _, hb, ha, hr, violations_of_reachable hr⟩

/-- Placing the one session of the records leaves no session missing, and validation fails all
the same: the room's record lacks the empty feature name the course lists. -/
theorem validate_fails_with_blank_feature :
    ∃ e t, Catalog.build blankFeatureRecords = .ok e ∧
      (empty e).assign ⟨"c", 0⟩ ⟨"s", "r"⟩ = .ok t ∧ t.missing = [] ∧ t.validate ≠ .ok () := by
  obtain ⟨e, hb, hcourses, hc, hr, hcheck⟩ := build_blankFeatureRecords
  have ha := assign_eq_ok.mpr ⟨hcheck, rfl⟩
  refine ⟨e, _, hb, ha, ?_, fun hv ↦ ?_⟩
  · simp [missing, hcourses]
  · -- the placed session has a blank-feature report, so validation cannot pass
    have hreach : Reachable _ := .assign (.empty (Catalog.indexed_of_build hb)) ha
    have hk : (⟨"c", 0⟩ : SessionKey) ∈ ((empty e).place ⟨"c", 0⟩ ⟨"s", "r"⟩).keys := by
      rw [(keys_perm _).mem_iff, Std.HashMap.mem_keys]
      simp
    have hblank := (hreach.validate_eq_ok_iff.mp hv).1 _ hk
    simp [blankFeatureReport, lookup, hc, hr] at hblank

end Timetable

end Timetabling
