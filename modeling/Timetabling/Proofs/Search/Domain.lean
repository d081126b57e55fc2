import Timetabling.Domain
import Timetabling.Proofs.Catalog.Arranged
import Timetabling.Proofs.Timetable.Coherence

/-! # Candidate placements

The domain of a course is meant to list exactly the placements that the static part of
`Timetable.check` allows: a known slot where the course's staff member is available and a known
room that suits the course. On a built catalog this holds on the nose: a placement is a candidate
of a course exactly when the empty timetable accepts it for a session of the course
(`Catalog.mem_candidates_iff`, `Domain.check_empty_eq_none_iff`). The searches rely on more than membership: a candidate list has
no repeats and is ordered by the slot's position in the week, then by the room's capacity, then
by the room's id, because the rooms are sorted by capacity with a stable sort of a list already
in id order. Counting distinct slots counts the slots where the staff member is available, as
soon as some room suits the course.

The main statement is `Domain.build_candidates_spec`. -/

namespace Timetabling

/-! ## Stable sorting by a key -/

/-- Sorting stably by an integer key puts smaller keys first and keeps the elements of one key in
the order they had. -/
theorem pairwise_stableSort {α : Type} (key : α → Int) {R : α → α → Prop} {xs : List α}
    (hxs : xs.Pairwise R) :
    (stableSort (fun a b => decide (key a < key b)) xs).Pairwise
      fun a b => key a < key b ∨ key a = key b ∧ R a b := by
  let le : α → α → Bool := fun a b => !decide (key b < key a)
  have htrans : ∀ a b c, le a b = true → le b c = true → le a c = true := by
    intro a b c hab hbc
    simp only [le, Bool.not_eq_eq_eq_not, Bool.not_true, decide_eq_false_iff_not, not_lt] at *
    omega
  have htotal : ∀ a b, (le a b || le b a) = true := by
    intro a b
    simp only [le, Bool.or_eq_true, Bool.not_eq_eq_eq_not, Bool.not_true, decide_eq_false_iff_not,
      not_lt]
    omega
  have hsorted := List.pairwise_mergeSort htrans htotal xs
  -- the elements of one key come out as a sublist of the input, in input order
  have hblock : ∀ v, (xs.mergeSort le).filter (key · = v) = xs.filter (key · = v) := by
    intro v
    have hsub : List.Sublist (xs.filter (key · = v)) (xs.mergeSort le) := by
      refine List.sublist_mergeSort htrans htotal ?_ List.filter_sublist
      refine List.pairwise_of_forall_mem_list fun a ha b hb ↦ ?_
      simp only [List.mem_filter, decide_eq_true_eq] at ha hb
      simp [le, ha.2, hb.2]
    have hsub' := hsub.filter (key · = v)
    simp only [List.filter_filter, Bool.and_self] at hsub'
    exact (hsub'.eq_of_length ((List.mergeSort_perm xs le).filter _).length_eq.symm).symm
  rw [List.pairwise_iff_forall_sublist]
  intro a b hab
  have hle : key a ≤ key b := by
    have := List.pairwise_iff_forall_sublist.mp hsorted hab
    simpa [le] using this
  rcases lt_or_eq_of_le hle with hlt | heq
  · exact .inl hlt
  · refine .inr ⟨heq, List.pairwise_iff_forall_sublist.mp hxs ?_⟩
    have hab' := hab.filter (key · = key a)
    simp only [List.filter_cons, heq, decide_true, List.filter_nil, if_true] at hab'
    rw [stableSort, hblock] at hab'
    exact hab'.trans List.filter_sublist

namespace Catalog

/-! ## Candidates of a course -/

variable {e : Catalog} {c : Course} {p : Placement}

/-- The rooms that suit a course, smallest first, rooms of one size in list order. -/
def suitingRooms (e : Catalog) (c : Course) : List Room :=
  stableSort (fun a b => decide (a.capacity < b.capacity)) (e.rooms.toList.filter fun r => e.roomSuits r c)

theorem candidates_eq (e : Catalog) (c : Course) :
    e.candidates c = e.slots.toList.flatMap fun s =>
      if e.facultyAvailable c.facultyId s.id then (e.suitingRooms c).map fun r => ⟨s.id, r.id⟩
      else [] := rfl

@[simp] theorem mem_suitingRooms {r : Room} :
    r ∈ e.suitingRooms c ↔ r ∈ e.rooms.toList ∧ e.roomSuits r c = true := by
  simp [suitingRooms, stableSort]

/-- The candidates of a course are exactly the placements the catalog allows it. -/
theorem mem_candidates_iff (he : e.Arranged) : p ∈ e.candidates c ↔ e.Allows c p := by
  rw [candidates_eq, List.mem_flatMap]
  constructor
  · rintro ⟨s, hs, hp⟩
    split at hp
    · rename_i havail
      obtain ⟨r, hr, rfl⟩ := List.mem_map.mp hp
      obtain ⟨hmem, hsuits⟩ := mem_suitingRooms.mp hr
      exact ⟨Option.isSome_iff_exists.mpr ⟨s, he.slot?_eq_some.mpr ⟨hs, rfl⟩⟩,
        ⟨r, he.room?_eq_some.mpr ⟨hmem, rfl⟩, hsuits⟩, havail⟩
    · simp at hp
  · rintro ⟨hslot, ⟨r, hr, hsuits⟩, havail⟩
    obtain ⟨s, hs⟩ := Option.isSome_iff_exists.mp hslot
    obtain ⟨hsmem, hsid⟩ := he.slot?_eq_some.mp hs
    obtain ⟨hrmem, hrid⟩ := he.room?_eq_some.mp hr
    refine ⟨s, hsmem, ?_⟩
    rw [if_pos (hsid ▸ havail)]
    exact List.mem_map.mpr ⟨r, mem_suitingRooms.mpr ⟨hrmem, hsuits⟩, by rw [hsid, hrid]⟩

/-- The capacity of the room of an id (zero for an unknown room). -/
def capacityOf (e : Catalog) (roomId : String) : Int :=
  ((e.room? roomId).map (·.capacity)).getD 0

/-- Where a placement stands in a candidate list: the position of its slot in the week, the
capacity of its room, and the id of its room. -/
def candidateRank (e : Catalog) (p : Placement) : Int × Int × String :=
  (e.slotOrder p.slot, e.capacityOf p.room, p.room)

/-- Candidate order: by slot, then by room capacity, then by room id. -/
def RanksBefore (e : Catalog) (p q : Placement) : Prop :=
  Prod.Lex (· < ·) (Prod.Lex (· < ·) (· < ·)) (e.candidateRank p) (e.candidateRank q)

theorem capacityOf_of_mem (he : e.Arranged) {r : Room} (hr : r ∈ e.rooms.toList) :
    e.capacityOf r.id = r.capacity := by
  simp [capacityOf, he.room?_eq_some.mpr ⟨hr, rfl⟩]

/-- The suiting rooms are in increasing capacity, rooms of one capacity in increasing id. -/
theorem suitingRooms_pairwise (he : e.Arranged) :
    (e.suitingRooms c).Pairwise fun a b =>
      a.capacity < b.capacity ∨ a.capacity = b.capacity ∧ a.id < b.id :=
  pairwise_stableSort Room.capacity (he.rooms_sorted.filter _)

/-- The candidates of a course are listed in candidate order. -/
theorem candidates_pairwise (he : e.Arranged) : (e.candidates c).Pairwise e.RanksBefore := by
  rw [candidates_eq, List.pairwise_flatMap]
  refine ⟨fun s _ ↦ ?_, he.slots_pairwise.imp fun hlt p hp q hq ↦ ?_⟩
  · -- within a slot the rooms' order decides
    split
    · rw [List.pairwise_map]
      refine (suitingRooms_pairwise he).imp_of_mem fun {a b} ha hb hab ↦ ?_
      have hca := capacityOf_of_mem he (mem_suitingRooms.mp ha).1
      have hcb := capacityOf_of_mem he (mem_suitingRooms.mp hb).1
      refine Prod.Lex.right _ ?_
      rcases hab with hlt | ⟨heq, hid⟩
      · exact Prod.Lex.left _ _ (by simpa [candidateRank, hca, hcb] using hlt)
      · simp only [hca, hcb, heq]
        exact Prod.Lex.right _ hid
    · exact List.Pairwise.nil
  · -- across slots the week decides
    split at hp
    · split at hq
      · obtain ⟨_, -, rfl⟩ := List.mem_map.mp hp
        obtain ⟨_, -, rfl⟩ := List.mem_map.mp hq
        exact Prod.Lex.left _ _ hlt
      · simp at hq
    · simp at hp

/-- Candidate order is strict, so a candidate list has no repeats. -/
theorem candidates_nodup (he : e.Arranged) : (e.candidates c).Nodup :=
  (candidates_pairwise he).imp fun h heq ↦ by
    subst heq
    rcases h with ⟨_, _, h⟩ | ⟨_, ⟨_, _, h⟩ | ⟨_, h⟩⟩ <;> exact lt_irrefl _ h

/-- A suiting room puts every available slot among a course's candidate slots, and without one
there are no candidates. -/
theorem mem_map_slot_candidates {name : String} :
    name ∈ (e.candidates c).map (·.slot) ↔
      (e.rooms.toList.any fun r => e.roomSuits r c) = true ∧
        name ∈ (e.slots.toList.filter fun s => e.facultyAvailable c.facultyId s.id).map (·.id) := by
  simp only [List.mem_map, List.mem_filter, List.any_eq_true]
  constructor
  · rintro ⟨p, hp, rfl⟩
    rw [candidates_eq, List.mem_flatMap] at hp
    obtain ⟨s, hs, hp⟩ := hp
    split at hp
    · rename_i havail
      obtain ⟨r, hr, rfl⟩ := List.mem_map.mp hp
      exact ⟨⟨r, mem_suitingRooms.mp hr⟩, s, ⟨hs, havail⟩, rfl⟩
    · simp at hp
  · rintro ⟨⟨r, hr⟩, s, ⟨hs, havail⟩, rfl⟩
    refine ⟨⟨s.id, r.id⟩, ?_, rfl⟩
    rw [candidates_eq, List.mem_flatMap]
    refine ⟨s, hs, ?_⟩
    rw [if_pos havail]
    exact List.mem_map.mpr ⟨r, mem_suitingRooms.mpr hr, rfl⟩

end Catalog

/-! ## Distinct names -/

/-- A list without repeats has as many names as the distinct names it holds. -/
theorem length_dedupStrings_of_nodup {xs : List String} (h : xs.Nodup) :
    (dedupStrings xs).length = xs.length :=
  ((List.perm_ext_iff_of_nodup (Catalog.dedupStrings_nodup xs) h).mpr fun _ ↦ mem_dedupStrings).length_eq

/-- Two lists with the same names have as many distinct names. -/
theorem length_dedupStrings_congr {xs : List String} (ys : List String) (h : ∀ y, y ∈ xs ↔ y ∈ ys) :
    (dedupStrings xs).length = (dedupStrings ys).length :=
  ((List.perm_ext_iff_of_nodup (Catalog.dedupStrings_nodup xs) (Catalog.dedupStrings_nodup ys)).mpr
    fun y ↦ by simp [h y]).length_eq

namespace Domain

variable {e : Catalog} {c : Course}

/-! ## The domain of a catalog -/

/-- The domain of a catalog lists a course's own candidates under its id. -/
theorem forCourse_build (he : e.Indexed) (hc : c ∈ e.courses.toList) :
    (build e).forCourse c.id = e.candidates c := by
  have h := Catalog.getElem?_foldl_insert_of_nodup Course.id (fun c ↦ e.candidates c) e.courses.toList {}
    he.courseIds_nodup c hc
  simp only [forCourse, build, ← Array.foldl_toList]
  rw [h]
  rfl

/-- Extending a domain with a course of a catalog lists what the domain of the catalog lists. -/
theorem forCourse_extend (d : Domain) (e : Catalog) (c : Course) :
    (d.extend e c).forCourse c.id = e.candidates c := by
  simp [forCourse, extend]

/-- The empty timetable accepts a placement for a session of a course exactly when the catalog
allows it. -/
theorem check_empty_eq_none_iff {k : SessionKey} {p : Placement}
    (hc : e.course? k.course = some c) (h0 : 0 ≤ k.index) (hlt : k.index < c.sessions) :
    (Timetable.empty e).check k p = none ↔ e.Allows c p := by
  rw [Timetable.check_eq_none_iff]
  constructor
  · rintro ⟨c', hf⟩
    have hcc : c' = c := Option.some.inj (hf.course.symm.trans hc)
    subst hcc
    exact ⟨hf.slot, hf.room, hf.available⟩
  · rintro ⟨hslot, hroom, havail⟩
    -- nothing is placed or booked yet, so only the catalog's part of the check remains
    exact ⟨c, hc, h0, hlt, by simp, hslot, hroom, havail, by simp, by simp, by simp,
      fun hpos ↦ by simpa using hpos⟩

/-- **Candidates are the static part of the check.** On a built catalog, for every course: a
placement is a candidate of a session of the course exactly when the empty timetable accepts it
for that session; the candidate list has no repeats and is in candidate order (slot, then room
capacity, then room id); the number of options is its length; the number of distinct candidate
slots is the number of slots where the course's staff member is available when some room suits
the course, and zero otherwise; and extending any domain with the course lists the same
candidates. -/
theorem build_candidates_spec {d : Dataset} {e : Catalog} (hb : Catalog.build d = .ok e) :
    ∀ c ∈ e.courses.toList,
      (∀ (i : Int) (p : Placement), 0 ≤ i → i < c.sessions →
        (p ∈ (build e).forKey ⟨c.id, i⟩ ↔ (Timetable.empty e).check ⟨c.id, i⟩ p = none)) ∧
      ((build e).forCourse c.id).Nodup ∧
      ((build e).forCourse c.id).Pairwise e.RanksBefore ∧
      (build e).options c.id = ((build e).forCourse c.id).length ∧
      (build e).distinctSlots c.id =
        (if e.rooms.toList.any (fun r => e.roomSuits r c) then
          (e.slots.toList.filter fun s => e.facultyAvailable c.facultyId s.id).length else 0) ∧
      ∀ d' : Domain, (d'.extend e c).forCourse c.id = (build e).forCourse c.id := by
  intro c hc
  have hi := Catalog.indexed_of_build hb
  have ha := Catalog.arranged_of_build hb
  have hcand := forCourse_build hi hc
  refine ⟨fun i p h0 hlt ↦ ?_, hcand ▸ Catalog.candidates_nodup ha,
    hcand ▸ Catalog.candidates_pairwise ha, rfl, ?_, fun d' ↦ by rw [forCourse_extend, hcand]⟩
  · rw [forKey, hcand, Catalog.mem_candidates_iff ha,
      check_empty_eq_none_iff (hi.course?_self hc) h0 hlt]
  · -- the distinct candidate slots are the available slots, or none without a suiting room
    unfold distinctSlots slotsOf
    rw [hcand]
    split
    · rename_i hany
      have hnodup : ((e.slots.toList.filter fun s => e.facultyAvailable c.facultyId s.id).map
          (·.id)).Nodup :=
        (ha.slotIds_nodup.sublist (List.filter_sublist.map _))
      rw [length_dedupStrings_congr ((e.slots.toList.filter fun s =>
          e.facultyAvailable c.facultyId s.id).map (·.id))
          fun y ↦ by simp [Catalog.mem_map_slot_candidates, hany],
        length_dedupStrings_of_nodup hnodup, List.length_map]
    · rename_i hany
      rw [length_dedupStrings_congr [] fun y ↦ by simp [Catalog.mem_map_slot_candidates, hany]]
      rfl

/-- Records with one course of two sessions, one member of staff, one room and one slot. -/
def singleRecords : Dataset :=
  { courses := [{ id := "c", facultyId := "f", sessions := 2 }], faculty := [{ id := "f" }],
    rooms := [{ id := "r", capacity := 10 }], timeSlots := [{ id := "s" }] }

/-- The records build to a catalog that knows their course, and over which the empty timetable
takes the course's first session in the one room at the one slot. -/
theorem build_singleRecords :
    ∃ e, Catalog.build singleRecords = .ok e ∧ (e.course? "c").isSome ∧
      (Timetable.empty e).check ⟨"c", 0⟩ ⟨"s", "r"⟩ = none := by
  cases hb : Catalog.build singleRecords with
  | error err =>
    simp [singleRecords, Catalog.build, Catalog.indexFaculty, Catalog.indexSlots,
      Catalog.indexRooms, Catalog.indexCourses, Catalog.courseStudents, stableSort, dedupStrings,
      sortStrings] at hb
    cases hb
  | ok e =>
    refine ⟨e, rfl, ?_⟩
    simp [singleRecords, Catalog.build, Catalog.indexFaculty, Catalog.indexSlots,
      Catalog.indexRooms, Catalog.indexCourses, Catalog.courseStudents, stableSort, dedupStrings,
      sortStrings] at hb
    cases hb
    simp [Timetable.check, Timetable.empty, Catalog.course?, Catalog.room?, Catalog.slot?,
      Catalog.roomSuits, Catalog.facultyAvailable, Catalog.students, Catalog.enrollment,
      Catalog.faculty?, Catalog.nameSet]

theorem build_candidates_spec_singleRecords :
    ∃ e, Catalog.build singleRecords = .ok e ∧
      ∀ c ∈ e.courses.toList,
        (∀ (i : Int) (p : Placement), 0 ≤ i → i < c.sessions →
          (p ∈ (build e).forKey ⟨c.id, i⟩ ↔ (Timetable.empty e).check ⟨c.id, i⟩ p = none)) ∧
        ((build e).forCourse c.id).Nodup ∧
        ((build e).forCourse c.id).Pairwise e.RanksBefore ∧
        (build e).options c.id = ((build e).forCourse c.id).length ∧
        (build e).distinctSlots c.id =
          (if e.rooms.toList.any (fun r => e.roomSuits r c) then
            (e.slots.toList.filter fun s => e.facultyAvailable c.facultyId s.id).length else 0) ∧
        ∀ d' : Domain, (d'.extend e c).forCourse c.id = (build e).forCourse c.id := by
  cases hb : Catalog.build singleRecords with
  | error err =>
    simp [singleRecords, Catalog.build, Catalog.indexFaculty, Catalog.indexSlots,
      Catalog.indexRooms, Catalog.indexCourses, Catalog.courseStudents, stableSort, dedupStrings,
      sortStrings] at hb
    cases hb
  | ok e => exact ⟨e, rfl, build_candidates_spec hb⟩

end Domain

end Timetabling
