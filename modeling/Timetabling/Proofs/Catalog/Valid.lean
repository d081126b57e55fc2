import Timetabling.Proofs.Catalog.Rebuild

/-! # Which datasets build

`Catalog.build` refuses a dataset at the first fault it meets and accepts it otherwise, so it
succeeds exactly on the datasets `Dataset.Valid` describes: ids present and distinct within each
kind, no negative session count, and every course's staff member and batches known
(`Catalog.build_isOk_iff`). Each step of indexing is read here as an iff, so the faults it refuses
are the faults named in `Dataset.Valid`, and nothing else. -/

namespace Timetabling

namespace Dataset

/-- The batch of an id: a batch id may repeat, and the last record of it wins. -/
def batch? (d : Dataset) (id : String) : Option Batch :=
  d.batches.reverse.find? (·.id == id)

/-- What building a catalog asks of a dataset. -/
structure Valid (d : Dataset) : Prop where
  facultyIds : ∀ f ∈ d.faculty, f.id ≠ ""
  facultyIds_nodup : (d.faculty.map (·.id)).Nodup
  slotIds : ∀ s ∈ d.timeSlots, s.id ≠ ""
  slotIds_nodup : (d.timeSlots.map (·.id)).Nodup
  roomIds : ∀ r ∈ d.rooms, r.id ≠ ""
  roomIds_nodup : (d.rooms.map (·.id)).Nodup
  courseIds : ∀ c ∈ d.courses, c.id ≠ ""
  courseIds_nodup : (d.courses.map (·.id)).Nodup
  sessions : ∀ c ∈ d.courses, 0 ≤ c.sessions
  facultyKnown : ∀ c ∈ d.courses, ∃ f ∈ d.faculty, f.id = c.facultyId
  batchesKnown : ∀ c ∈ d.courses, ∀ b ∈ c.batchIds, ∃ x ∈ d.batches, x.id = b

instance (d : Dataset) : Decidable d.Valid :=
  decidable_of_iff ((∀ f ∈ d.faculty, f.id ≠ "") ∧ (d.faculty.map (·.id)).Nodup ∧
      (∀ s ∈ d.timeSlots, s.id ≠ "") ∧ (d.timeSlots.map (·.id)).Nodup ∧
      (∀ r ∈ d.rooms, r.id ≠ "") ∧ (d.rooms.map (·.id)).Nodup ∧
      (∀ c ∈ d.courses, c.id ≠ "") ∧ (d.courses.map (·.id)).Nodup ∧
      (∀ c ∈ d.courses, 0 ≤ c.sessions) ∧ (∀ c ∈ d.courses, ∃ f ∈ d.faculty, f.id = c.facultyId) ∧
      ∀ c ∈ d.courses, ∀ b ∈ c.batchIds, ∃ x ∈ d.batches, x.id = b)
    ⟨fun ⟨h₁, h₂, h₃, h₄, h₅, h₆, h₇, h₈, h₉, h₁₀, h₁₁⟩ ↦ ⟨h₁, h₂, h₃, h₄, h₅, h₆, h₇, h₈, h₉, h₁₀, h₁₁⟩,
      fun h ↦ ⟨h.1, h.2, h.3, h.4, h.5, h.6, h.7, h.8, h.9, h.10, h.11⟩⟩

end Dataset

namespace Catalog

/-! ## Maps filled from lists -/

theorem contains_foldl_insert {α β : Type} (key : α → String) (val : α → β) (l : List α)
    (m : Std.HashMap String β) (k : String) :
    (l.foldl (fun m y => m.insert (key y) (val y)) m).contains k ↔
      m.contains k ∨ ∃ y ∈ l, key y = k := by
  induction l generalizing m with
  | nil => simp
  | cons y ys ih =>
    rw [List.foldl_cons, ih, Std.HashMap.contains_insert]
    simp only [beq_iff_eq, Bool.or_eq_true, List.mem_cons, exists_eq_or_imp]
    tauto

/-- The batch found under an id is the last record of that id. -/
theorem batchIndex_getElem? (d : Dataset) (id : String) :
    (batchIndex d.batches)[id]? = d.batch? id := by
  -- filling from `m`, a later record of the id hides everything before it
  have h : ∀ (bs : List Batch) (m : Std.HashMap String Batch),
      (bs.foldl (fun m b => m.insert b.id b) m)[id]? = (bs.reverse.find? (·.id == id)).or m[id]? := by
    intro bs
    induction bs with
    | nil => simp
    | cons b bs ih =>
      intro m
      rw [List.foldl_cons, ih, Std.HashMap.getElem?_insert, List.reverse_cons, List.find?_append,
        Option.or_assoc]
      by_cases hb : b.id = id <;> simp [hb]
  simpa [batchIndex, Dataset.batch?] using h d.batches {}

/-- A batch is found under an id exactly when some record has that id. -/
theorem batch?_isSome_iff {d : Dataset} {id : String} :
    (d.batch? id).isSome ↔ ∃ x ∈ d.batches, x.id = id := by
  simp [Dataset.batch?, List.find?_isSome]

/-! ## The students of a course -/

/-- The students of a course, when its batches are all known: its own non-empty ids and all the
ids of its batches, without repeats, sorted. -/
theorem courseStudents_eq_ok {batches : Std.HashMap String Batch} {c : Course} {ss : List String}
    (h : courseStudents batches c = .ok ss) :
    (∀ b ∈ c.batchIds, (batches[b]?).isSome) ∧
      ss = sortStrings (dedupStrings (c.studentIds.filter (· != "") ++
        c.batchIds.flatMap fun b ↦ ((batches[b]?).map (·.studentIds)).getD [])) := by
  unfold courseStudents at h
  obtain ⟨fromBatches, hmap, hss⟩ := exists_of_bind_eq_ok h
  cases hss
  have hknown : ∀ b ∈ c.batchIds, (batches[b]?).isSome := by
    intro b hb
    obtain ⟨y, hy⟩ := exists_of_mapM_eq_ok hmap b hb
    cases hbatch : batches[b]? with
    | none => simp [hbatch] at hy
    | some x => rfl
  refine ⟨hknown, ?_⟩
  -- every lookup succeeds, so the batches' lists are read off in order
  rw [mapM_eq_ok_map (g := fun b ↦ ((batches[b]?).map (·.studentIds)).getD []) fun b hb ↦ ?_]
    at hmap
  · cases hmap
    rfl
  · obtain ⟨x, hx⟩ := Option.isSome_iff_exists.mp (hknown b hb)
    simp [hx, pure, Except.pure]

/-- A course's students are found exactly when all its batches are. -/
theorem courseStudents_isOk_iff {batches : Std.HashMap String Batch} {c : Course} :
    (∃ ss, courseStudents batches c = .ok ss) ↔ ∀ b ∈ c.batchIds, (batches[b]?).isSome := by
  refine ⟨fun ⟨ss, h⟩ ↦ (courseStudents_eq_ok h).1, fun hknown ↦ ?_⟩
  unfold courseStudents
  rw [mapM_eq_ok_map (g := fun b ↦ ((batches[b]?).map (·.studentIds)).getD []) fun b hb ↦ ?_]
  · exact ⟨_, rfl⟩
  · obtain ⟨x, hx⟩ := Option.isSome_iff_exists.mp (hknown b hb)
    simp [hx, pure, Except.pure]

/-! ## Steps of indexing, read as iffs -/

/-- An indexing fold over records at their positions succeeds when every id is given, fresh and
distinct, if each such step does. -/
theorem foldlM_zipIdx_ok {α γ ε : Type} {key : α → String} {proj : γ → Std.HashMap String Nat}
    {step : γ → α × Nat → Except ε γ}
    (hstep : ∀ acc x i, key x ≠ "" → ¬(proj acc).contains (key x) →
      ∃ res, step acc (x, i) = .ok res ∧ proj res = (proj acc).insert (key x) i) :
    ∀ (xs : List α) (n : Nat) (acc : γ), (xs.map key).Nodup →
      (∀ x ∈ xs, key x ≠ "" ∧ ¬(proj acc).contains (key x)) → ∃ res, (xs.zipIdx n).foldlM step acc = .ok res
  | [], _, acc, _, _ => ⟨acc, rfl⟩
  | x :: xs, n, acc, hnd, hall => by
    obtain ⟨hnot, hnd'⟩ := List.nodup_cons.mp hnd
    obtain ⟨res, hres, hproj⟩ := hstep acc x n (hall x List.mem_cons_self).1
      (hall x List.mem_cons_self).2
    obtain ⟨res', hres'⟩ := foldlM_zipIdx_ok hstep xs (n + 1) res hnd' fun y hy ↦ by
      have hne : key x ≠ key y := fun h ↦ hnot (List.mem_map.mpr ⟨y, hy, h.symm⟩)
      refine ⟨(hall y (List.mem_cons_of_mem _ hy)).1, ?_⟩
      simp [hproj, Std.HashMap.contains_insert, hne, (hall y (List.mem_cons_of_mem _ hy)).2]
    exact ⟨res', by rw [List.zipIdx_cons, List.foldlM_cons, hres]; exact hres'⟩

/-! ## Validity -/

variable {d : Dataset}

theorem byId_perm {α : Type} (id : α → String) (xs : List α) : (byId id xs).Perm xs :=
  List.mergeSort_perm _ _

/-- Every catalog `build` returns was built from a valid dataset. -/
theorem valid_of_build {e : Catalog} (hb : build d = .ok e) : d.Valid := by
  obtain ⟨studs, hfac, hrooms, hcourses, -⟩ := build_eq_ok hb
  rw [indexFaculty_eq_foldlM, foldlM_indexFacultyStep_eq_ok_iff] at hfac
  obtain ⟨⟨hfs, hfnd⟩, hm⟩ := hfac
  -- slots and rooms: every record processed is entered under a fresh, given id
  have hslots := indexSlots_of_build hb
  rw [indexSlots_eq_foldlM] at hslots
  obtain ⟨-, -, hsnd, hsid⟩ := positions_of_foldlM TimeSlot.id (·.id ≠ "") Prod.fst
    (fun acc x res hs ↦ by
      obtain ⟨hid, hdup, rfl⟩ := indexSlotStep_eq_ok_iff.mp hs
      exact ⟨hdup, hid, rfl⟩) rfl hslots
  have hsperm : e.slots.toList.Perm d.timeSlots := by
    rw [slots_of_build hb, List.toList_toArray]
    exact List.mergeSort_perm _ _
  rw [indexRooms_eq_foldlM] at hrooms
  obtain ⟨-, -, hrnd, hrid⟩ := positions_of_foldlM Room.id (·.id ≠ "") id
    (fun acc x res hs ↦ by
      obtain ⟨hid, hdup, rfl⟩ := indexRoomStep_eq_ok_iff.mp hs
      exact ⟨hdup, hid, rfl⟩) rfl hrooms
  rw [indexCourses_eq_foldlM] at hcourses
  obtain ⟨hcnd, hcs, -⟩ := foldlM_indexCourseStep_eq_ok _ 0 _ _ hcourses
  have hcmem : ∀ c ∈ d.courses, c ∈ byId Course.id d.courses := fun c hc ↦
    (byId_perm Course.id d.courses).mem_iff.mpr hc
  refine ⟨fun f hf ↦ (hfs f hf).1, hfnd, fun s hs ↦ hsid s (hsperm.mem_iff.mpr hs),
    (hsperm.map _).nodup_iff.mp hsnd, fun r hr ↦ hrid r ((byId_perm Room.id d.rooms).mem_iff.mpr hr),
    ((byId_perm Room.id d.rooms).map _).nodup_iff.mp hrnd, fun c hc ↦ (hcs c (hcmem c hc)).1.1,
    ((byId_perm Course.id d.courses).map _).nodup_iff.mp hcnd,
    fun c hc ↦ (hcs c (hcmem c hc)).1.2.1, fun c hc ↦ ?_, fun c hc b hb ↦ ?_⟩
  · -- the staff member is found in the map filled from the staff records
    have hf := (hcs c (hcmem c hc)).1.2.2.1
    rw [hm, contains_foldl_insert] at hf
    simpa using hf
  · obtain ⟨ss, hss⟩ := (hcs c (hcmem c hc)).1.2.2.2
    have hknown := (courseStudents_eq_ok hss).1 b hb
    rw [show d.batches.foldl (fun m b => m.insert b.id b) {} = batchIndex d.batches from rfl,
      batchIndex_getElem?] at hknown
    exact batch?_isSome_iff.mp hknown

/-- A valid dataset builds. -/
theorem build_isOk_of_valid (hv : d.Valid) : ∃ e, build d = .ok e := by
  have hfac : indexFaculty d.faculty = .ok (d.faculty.foldl (fun m f => m.insert f.id f) {}) := by
    rw [indexFaculty_eq_foldlM, foldlM_indexFacultyStep_eq_ok_iff]
    exact ⟨⟨fun f hf ↦ ⟨hv.facultyIds f hf, by simp⟩, hv.facultyIds_nodup⟩, rfl⟩
  have hsperm := List.mergeSort_perm d.timeSlots
    (fun a b => !(if b.day == a.day then b.period < a.period else b.day < a.day))
  obtain ⟨slots, hslots⟩ := @foldlM_zipIdx_ok TimeSlot _ _ TimeSlot.id Prod.fst _
    (fun acc s i hid hdup ↦ ⟨_, indexSlotStep_eq_ok_iff.mpr ⟨hid, hdup, rfl⟩, rfl⟩) _ 0 ({}, {})
    ((hsperm.map _).nodup_iff.mpr hv.slotIds_nodup)
    fun s hs ↦ ⟨hv.slotIds s (hsperm.mem_iff.mp hs), by simp⟩
  have hrperm := byId_perm Room.id d.rooms
  obtain ⟨rooms, hrooms⟩ := @foldlM_zipIdx_ok Room _ _ Room.id id _
    (fun acc r i hid hdup ↦ ⟨_, indexRoomStep_eq_ok_iff.mpr ⟨hid, hdup, rfl⟩, rfl⟩) _ 0 {}
    ((hrperm.map _).nodup_iff.mpr hv.roomIds_nodup)
    fun r hr ↦ ⟨hv.roomIds r (hrperm.mem_iff.mp hr), by simp⟩
  -- every course in id order is indexable: its staff member and batches are known
  have hcperm := byId_perm Course.id d.courses
  obtain ⟨courses, hcourses⟩ := @foldlM_indexCourseStep_of_indexable
    (d.faculty.foldl (fun m f => m.insert f.id f) {}) (batchIndex d.batches)
    (byId Course.id d.courses) 0 ({}, {}) ((hcperm.map _).nodup_iff.mpr hv.courseIds_nodup)
    fun c hc ↦ by
      have hc' := hcperm.mem_iff.mp hc
      refine ⟨⟨hv.courseIds c hc', hv.sessions c hc', ?_, ?_⟩, by simp⟩
      · rw [contains_foldl_insert]
        exact .inr (hv.facultyKnown c hc')
      · refine courseStudents_isOk_iff.mpr fun b hb ↦ ?_
        rw [batchIndex_getElem?]
        exact batch?_isSome_iff.mpr (hv.batchesKnown c hc' b hb)
  exact build_ok_of hfac hslots hrooms hcourses

/-- `build` succeeds exactly on valid datasets. -/
theorem build_isOk_iff : (∃ e, build d = .ok e) ↔ d.Valid :=
  ⟨fun ⟨_, hb⟩ ↦ valid_of_build hb, build_isOk_of_valid⟩

end Catalog

end Timetabling
