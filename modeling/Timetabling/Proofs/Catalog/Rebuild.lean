import Timetabling.Proofs.Catalog.Arranged

/-! # Building a catalog again from its own records

A catalog keeps the records it was built from, sorted (`Catalog.toDataset`), and a course joins
or leaves it by building a catalog again from them with another list of courses. Staff, batches,
rooms and slots come back as they were: staff and batches are entered under their distinct ids
whatever their order, and rooms and slots are sorted already. So the new catalog finds every
room, slot and member of staff the old one finds, and every course whose records are the same in
both course lists, with its students and required features (`Catalog.Keeps`,
`Catalog.keeps_of_rebuild`). Taking a course out of a built catalog never fails
(`Catalog.withoutCourse_eq_ok`). -/

namespace Timetabling

namespace Catalog

/-- `e'` finds every slot, room and member of staff as `e` does, and every course whose id passes
`keep`, with its students and required features. -/
structure Keeps (e e' : Catalog) (keep : String → Prop) : Prop where
  slot? : ∀ id : String, e'.slot? id = e.slot? id
  room? : ∀ id : String, e'.room? id = e.room? id
  roomFeatures : ∀ id : String, e'.roomFeatures[id]? = e.roomFeatures[id]?
  faculty? : ∀ id : String, e'.faculty? id = e.faculty? id
  available : ∀ id : String, e'.available[id]? = e.available[id]?
  course? : ∀ {id : String}, keep id → e'.course? id = e.course? id
  students : ∀ {id : String}, keep id → (e.course? id).isSome → e'.students id = e.students id
  featureSets : ∀ {id : String}, keep id → (e.course? id).isSome →
    e'.featureSets[id]? = e.featureSets[id]?

namespace Keeps

variable {e e' : Catalog} {keep : String → Prop}

theorem facultyAvailable (h : e.Keeps e' keep) (f s : String) :
    e'.facultyAvailable f s = e.facultyAvailable f s := by
  simp only [Catalog.facultyAvailable, h.available]

/-- A kept course suits the same rooms. -/
theorem roomSuits (h : e.Keeps e' keep) {c : Course} (hkeep : keep c.id)
    (hc : (e.course? c.id).isSome) (r : Room) : e'.roomSuits r c = e.roomSuits r c := by
  unfold Catalog.roomSuits Catalog.enrollment
  rw [h.students hkeep hc, h.roomFeatures, h.featureSets hkeep hc]

end Keeps

/-! ## Sorting what is sorted -/

/-- Records in id order stay as they are when sorted by id again. -/
theorem byId_of_sublist {α : Type} (id : α → String) {xs ys : List α}
    (h : ys.Sublist (byId id xs)) : byId id ys = ys :=
  List.mergeSort_of_pairwise (((byId_pairwise id xs).sublist h).imp fun h ↦ by simpa using h)

/-- Slots in order of day and period stay as they are when sorted again. -/
theorem stableSort_slots_idem (xs : List TimeSlot) :
    stableSort (fun a b => if a.day == b.day then a.period < b.period else a.day < b.day)
        (stableSort (fun a b => if a.day == b.day then a.period < b.period else a.day < b.day) xs) =
      stableSort (fun a b => if a.day == b.day then a.period < b.period else a.day < b.day) xs := by
  -- the order is by day, then by period: a total preorder
  refine List.mergeSort_of_pairwise (List.pairwise_mergeSort (fun a b c hab hbc ↦ ?_)
    (fun a b ↦ ?_) xs)
  · simp only [beq_iff_eq, Bool.not_eq_eq_eq_not, Bool.not_true] at hab hbc ⊢
    split_ifs at hab hbc ⊢ <;> simp_all <;> omega
  · simp only [beq_iff_eq, Bool.or_eq_true, Bool.not_eq_eq_eq_not, Bool.not_true]
    split_ifs <;> simp_all <;> omega

/-! ## Maps filled from lists with distinct keys -/

/-- Filling a map from two lists with the same elements and distinct keys gives the same
entries. -/
theorem getElem?_foldl_insert_perm {α β : Type} (key : α → String) (val : α → β) {l l' : List α}
    (hp : l.Perm l') (hnd : (l.map key).Nodup) (k : String) :
    (l'.foldl (fun m y => m.insert (key y) (val y)) ({} : Std.HashMap String β))[k]? =
      (l.foldl (fun m y => m.insert (key y) (val y)) ({} : Std.HashMap String β))[k]? := by
  have hnd' : (l'.map key).Nodup := (hp.map key).nodup_iff.mp hnd
  by_cases hk : k ∈ l.map key
  · obtain ⟨x, hx, rfl⟩ := List.mem_map.mp hk
    rw [getElem?_foldl_insert_of_nodup key val l _ hnd x hx,
      getElem?_foldl_insert_of_nodup key val l' _ hnd' x (hp.mem_iff.mp hx)]
  · rw [getElem?_foldl_insert_of_not_mem key val l _ hk,
      getElem?_foldl_insert_of_not_mem key val l' _ fun h ↦ hk ((hp.map key).mem_iff.mpr h)]

/-! ## Staff -/

/-- A member of staff is indexed exactly when their id is given and not indexed yet. -/
theorem indexFacultyStep_eq_ok_iff {m m' : Std.HashMap String Faculty} {f : Faculty} :
    indexFacultyStep m f = .ok m' ↔ f.id ≠ "" ∧ ¬m.contains f.id ∧ m' = m.insert f.id f := by
  unfold indexFacultyStep
  by_cases hid : f.id = ""
  · simp [hid]
  · by_cases hdup : m.contains f.id
    · simp [hid, hdup]
    · simp only [hid, beq_iff_eq, if_false, hdup, Bool.false_eq_true, pure, Except.pure,
        Except.ok.injEq, ne_eq, not_false_eq_true, true_and]
      exact eq_comm

/-- Indexing staff succeeds exactly on records with non-empty ids, distinct and not indexed yet,
and enters each under its id. -/
theorem foldlM_indexFacultyStep_eq_ok_iff :
    ∀ {fs : List Faculty} {acc m : Std.HashMap String Faculty},
      fs.foldlM indexFacultyStep acc = .ok m ↔
        ((∀ f ∈ fs, f.id ≠ "" ∧ ¬acc.contains f.id) ∧ (fs.map (·.id)).Nodup) ∧
          m = fs.foldl (fun m f => m.insert f.id f) acc
  | [], acc, m => by
    simp only [List.foldlM_nil, List.not_mem_nil, false_implies, implies_true, List.map_nil,
      List.nodup_nil, and_self, List.foldl_nil, true_and]
    exact ⟨fun h ↦ (Except.ok.inj h).symm, fun h ↦ h ▸ rfl⟩
  | f :: fs, acc, m => by
    rw [List.foldlM_cons]
    cases hstep : indexFacultyStep acc f with
    | error err =>
      -- refused: the id is empty or indexed already
      refine ⟨(fun h ↦ nomatch h), fun h ↦ ?_⟩
      obtain ⟨hid, hdup⟩ := h.1.1 f List.mem_cons_self
      have hok := indexFacultyStep_eq_ok_iff.mpr ⟨hid, hdup, rfl⟩
      rw [hstep] at hok
      cases hok
    | ok acc' =>
      -- the record is entered, and the rest are indexed after it
      obtain ⟨hid, hdup, rfl⟩ := indexFacultyStep_eq_ok_iff.mp hstep
      rw [show (Except.ok (acc.insert f.id f) : Except CatalogError _) >>=
          (fun init ↦ fs.foldlM indexFacultyStep init) =
        fs.foldlM indexFacultyStep (acc.insert f.id f) from rfl, foldlM_indexFacultyStep_eq_ok_iff]
      simp only [Std.HashMap.contains_insert, beq_iff_eq, Bool.or_eq_true, not_or, List.mem_cons,
        forall_eq_or_imp, List.map_cons, List.nodup_cons, List.mem_map, List.foldl_cons]
      constructor
      · rintro ⟨⟨hfs, hnd⟩, rfl⟩
        exact ⟨⟨⟨⟨hid, hdup⟩, fun g hg ↦ ⟨(hfs g hg).1, (hfs g hg).2.2⟩⟩,
          fun ⟨g, hg, hgf⟩ ↦ (hfs g hg).2.1 hgf.symm, hnd⟩, rfl⟩
      · rintro ⟨⟨⟨-, hfs⟩, hnot, hnd⟩, rfl⟩
        exact ⟨⟨fun g hg ↦ ⟨(hfs g hg).1, fun h ↦ hnot ⟨g, hg, h.symm⟩, (hfs g hg).2⟩, hnd⟩, rfl⟩

/-- Staff records indexed once are indexed again in any order, under the same ids. -/
theorem indexFaculty_perm {fs fs' : List Faculty} {m : Std.HashMap String Faculty}
    (h : indexFaculty fs = .ok m) (hp : fs.Perm fs') :
    ∃ m', indexFaculty fs' = .ok m' ∧ ∀ id : String, m'[id]? = m[id]? := by
  rw [indexFaculty_eq_foldlM, foldlM_indexFacultyStep_eq_ok_iff] at h
  obtain ⟨⟨hfs, hnd⟩, rfl⟩ := h
  refine ⟨_, by
    rw [indexFaculty_eq_foldlM, foldlM_indexFacultyStep_eq_ok_iff]
    exact ⟨⟨fun f hf ↦ hfs f (hp.mem_iff.mpr hf), (hp.map _).nodup_iff.mp hnd⟩, rfl⟩,
    getElem?_foldl_insert_perm Faculty.id id hp hnd⟩

/-! ## Batches -/

/-- The batches of a list under their ids, the last record of an id kept. -/
def batchIndex (bs : List Batch) : Std.HashMap String Batch :=
  bs.foldl (fun m b => m.insert b.id b) {}

/-- Every batch is entered under its own id. -/
theorem id_of_batchIndex {bs : List Batch} {k : String} {b : Batch}
    (h : (batchIndex bs)[k]? = some b) : b.id = k := by
  unfold batchIndex at h
  -- the invariant of the fold: each entry is under its record's id
  have hinv : ∀ (l : List Batch) (m : Std.HashMap String Batch),
      (∀ (k : String) (b : Batch), m[k]? = some b → b.id = k) →
        ∀ (k : String) (b : Batch), (l.foldl (fun m b => m.insert b.id b) m)[k]? = some b → b.id = k := by
    intro l
    induction l with
    | nil => exact fun m hm ↦ hm
    | cons x xs ih =>
      refine fun m hm ↦ ih _ fun k b hb ↦ ?_
      rw [Std.HashMap.getElem?_insert] at hb
      split at hb
      · rename_i heq
        cases hb
        exact beq_iff_eq.mp heq
      · exact hm k b hb
  exact hinv bs {} (fun _ _ h ↦ by simp at h) k b h

/-- The batches found under their ids carry the ids they are found under. -/
theorem batchIndex_ids (bs : List Batch) :
    ((batchIndex bs).toList.map (·.2)).map Batch.id = (batchIndex bs).keys := by
  rw [← Std.HashMap.map_fst_toList_eq_keys, List.map_map]
  refine List.map_congr_left fun x hx ↦ ?_
  exact id_of_batchIndex (Std.HashMap.mem_toList_iff_getElem?_eq_some.mp hx)

theorem batchIndex_ids_nodup (bs : List Batch) :
    (((batchIndex bs).toList.map (·.2)).map Batch.id).Nodup :=
  batchIndex_ids bs ▸ Std.HashMap.nodup_keys

/-- The batches a catalog lists, indexed again, are the batches it was built with. -/
theorem batchIndex_entries (bs : List Batch) (k : String) :
    (batchIndex (byId Batch.id ((batchIndex bs).toList.map (·.2))))[k]? = (batchIndex bs)[k]? := by
  set B := batchIndex bs
  have hperm : (byId Batch.id (B.toList.map (·.2))).Perm (B.toList.map (·.2)) :=
    List.mergeSort_perm _ _
  have hnd : ((B.toList.map (·.2)).map Batch.id).Nodup := batchIndex_ids_nodup bs
  rw [batchIndex, getElem?_foldl_insert_perm Batch.id (fun b ↦ b) hperm.symm hnd]
  cases hk : B[k]? with
  | some b =>
    have hb : b ∈ B.toList.map (·.2) :=
      List.mem_map.mpr ⟨(k, b), Std.HashMap.mem_toList_iff_getElem?_eq_some.mpr hk, rfl⟩
    rw [← id_of_batchIndex hk]
    exact getElem?_foldl_insert_of_nodup Batch.id (fun b ↦ b) _ _ hnd b hb
  | none =>
    refine (getElem?_foldl_insert_of_not_mem Batch.id (fun b ↦ b) _ _ fun hmem ↦ ?_).trans
      Std.HashMap.getElem?_empty
    rw [batchIndex_ids, Std.HashMap.mem_keys] at hmem
    have hsome : B[k]?.isSome := Std.HashMap.mem_iff_isSome_getElem?.mp hmem
    simp [hk] at hsome

/-- The students of a course depend only on the batches found under its batch ids. -/
theorem courseStudents_congr {batches batches' : Std.HashMap String Batch}
    (h : ∀ id : String, batches'[id]? = batches[id]?) (c : Course) :
    courseStudents batches' c = courseStudents batches c := by
  simp only [courseStudents, h]

/-! ## Courses -/

/-- What indexing asks of a course: an id, a session count that is not negative, a known member
of staff and known batches. -/
def Indexable (fac : Std.HashMap String Faculty) (batches : Std.HashMap String Batch)
    (c : Course) : Prop :=
  c.id ≠ "" ∧ 0 ≤ c.sessions ∧ fac.contains c.facultyId = true ∧
    ∃ ss, courseStudents batches c = .ok ss

/-- Whether a course is indexable depends only on the entries of the staff and batch maps. -/
theorem Indexable.congr {fac fac' : Std.HashMap String Faculty}
    {batches batches' : Std.HashMap String Batch} (hfac : ∀ id : String, fac'[id]? = fac[id]?)
    (hbatches : ∀ id : String, batches'[id]? = batches[id]?) {c : Course}
    (h : Indexable fac batches c) : Indexable fac' batches' c := by
  obtain ⟨hid, hneg, hf, hss⟩ := h
  refine ⟨hid, hneg, ?_, courseStudents_congr hbatches c ▸ hss⟩
  rw [Std.HashMap.contains_eq_isSome_getElem?, hfac, ← Std.HashMap.contains_eq_isSome_getElem?]
  exact hf

theorem indexCourseStep_eq_ok_iff {fac : Std.HashMap String Faculty}
    {batches : Std.HashMap String Batch}
    {acc res : Std.HashMap String Nat × Std.HashMap String (List String)} {c : Course} {i : Nat} :
    indexCourseStep fac batches acc (c, i) = .ok res ↔
      ¬acc.1.contains c.id ∧ Indexable fac batches c ∧
        ∃ ss, courseStudents batches c = .ok ss ∧ res = (acc.1.insert c.id i, acc.2.insert c.id ss) := by
  obtain ⟨idx, studs⟩ := acc
  constructor
  · intro h
    simp only [indexCourseStep] at h
    -- each check either throws or passes, in the order the step makes them
    split at h
    · cases h
    rename_i hid
    split at h
    · cases h
    rename_i hdup
    split at h
    · cases h
    rename_i hneg
    split at h
    · cases h
    rename_i hfac
    cases hs : courseStudents batches c with
    | error err => simp [hs] at h
    | ok ss =>
      simp only [hs] at h
      cases h
      exact ⟨hdup, ⟨by simpa using hid, by omega, by simpa using hfac, ss, hs⟩, ss, rfl, rfl⟩
  · rintro ⟨hdup, ⟨hid, hneg, hfac, -⟩, ss, hss, rfl⟩
    have hneg' : ¬c.sessions < 0 := by omega
    simp [indexCourseStep, hid, hdup, hneg', hfac, hss, bind, Except.bind, pure, Except.pure]

variable {fac : Std.HashMap String Faculty} {batches : Std.HashMap String Batch}

/-- Courses with distinct ids, none indexed yet, each indexable, are all indexed. -/
theorem foldlM_indexCourseStep_of_indexable :
    ∀ (cs : List Course) (n : Nat) (acc : Std.HashMap String Nat × Std.HashMap String (List String)),
      (cs.map (·.id)).Nodup → (∀ c ∈ cs, Indexable fac batches c ∧ ¬acc.1.contains c.id) →
      ∃ res, (cs.zipIdx n).foldlM (indexCourseStep fac batches) acc = .ok res
  | [], _, acc, _, _ => ⟨acc, rfl⟩
  | c :: cs, n, acc, hnd, hcs => by
    obtain ⟨hgood, hfresh⟩ := hcs c List.mem_cons_self
    obtain ⟨hnot, hnd'⟩ := List.nodup_cons.mp hnd
    obtain ⟨ss, hss⟩ := hgood.2.2.2
    have hstep : indexCourseStep fac batches acc (c, n) =
        .ok (acc.1.insert c.id n, acc.2.insert c.id ss) :=
      indexCourseStep_eq_ok_iff.mpr ⟨hfresh, hgood, ss, hss, rfl⟩
    -- the later ids differ from this one, so they are still fresh
    obtain ⟨res, hres⟩ := foldlM_indexCourseStep_of_indexable cs (n + 1)
      (acc.1.insert c.id n, acc.2.insert c.id ss) hnd' fun c' hc' ↦
      ⟨(hcs c' (List.mem_cons_of_mem _ hc')).1, by
        have hne : c.id ≠ c'.id := fun h ↦ hnot (List.mem_map.mpr ⟨c', hc', h.symm⟩)
        simp [Std.HashMap.contains_insert, hne, (hcs c' (List.mem_cons_of_mem _ hc')).2]⟩
    exact ⟨res, by rw [List.zipIdx_cons, List.foldlM_cons, hstep]; exact hres⟩

/-- Indexed courses have distinct ids, fresh at the start, each indexable, each with its students
entered under its id; other ids keep their entries. -/
theorem foldlM_indexCourseStep_eq_ok :
    ∀ (cs : List Course) (n : Nat) (acc res : Std.HashMap String Nat × Std.HashMap String (List String)),
      (cs.zipIdx n).foldlM (indexCourseStep fac batches) acc = .ok res →
      (cs.map (·.id)).Nodup ∧
        (∀ c ∈ cs, Indexable fac batches c ∧ ¬acc.1.contains c.id ∧
          ∃ ss, courseStudents batches c = .ok ss ∧ res.2[c.id]? = some ss) ∧
        ∀ id : String, id ∉ cs.map (·.id) → res.2[id]? = acc.2[id]?
  | [], _, acc, res, h => by
    cases h
    simp
  | c :: cs, n, acc, res, h => by
    rw [List.zipIdx_cons, List.foldlM_cons] at h
    obtain ⟨acc', hstep, hrest⟩ := exists_of_bind_eq_ok h
    obtain ⟨hfresh, hgood, ss, hss, rfl⟩ := indexCourseStep_eq_ok_iff.mp hstep
    obtain ⟨hnd, hcs, hframe⟩ := foldlM_indexCourseStep_eq_ok cs (n + 1) _ res hrest
    -- a later course is not indexed under this id, so this entry stays
    have hnot : c.id ∉ cs.map (·.id) := by
      intro hmem
      obtain ⟨c', hc', hid⟩ := List.mem_map.mp hmem
      exact (hcs c' hc').2.1 (by simp [Std.HashMap.contains_insert, hid])
    refine ⟨List.nodup_cons.mpr ⟨hnot, hnd⟩, ?_, fun id hid ↦ ?_⟩
    · intro c' hc'
      rcases List.mem_cons.mp hc' with rfl | hc'
      · exact ⟨hgood, hfresh, ss, hss, by rw [hframe _ hnot]; simp⟩
      · obtain ⟨hgood', hfresh', hss'⟩ := hcs c' hc'
        exact ⟨hgood', fun h ↦ hfresh' (by simp [Std.HashMap.contains_insert, h]), hss'⟩
    · simp only [List.map_cons, List.mem_cons, not_or] at hid
      rw [hframe id hid.2]
      simp [Std.HashMap.getElem?_insert, Ne.symm hid.1]

/-! ## What a built catalog keeps -/

variable {d : Dataset} {e : Catalog}

/-- The records a built catalog keeps besides its indexes: its batches, sorted by id, and the
slots its staff are available in. -/
theorem records_of_build (hb : build d = .ok e) :
    e.batchList = byId Batch.id ((batchIndex d.batches).toList.map (·.2)) ∧
      e.available = d.faculty.foldl (fun m f => m.insert f.id (nameSet f.availableSlots)) {} := by
  unfold build at hb
  obtain ⟨_, -, hb⟩ := exists_of_bind_eq_ok hb
  obtain ⟨_, -, hb⟩ := exists_of_bind_eq_ok hb
  obtain ⟨_, -, hb⟩ := exists_of_bind_eq_ok hb
  obtain ⟨_, -, hb⟩ := exists_of_bind_eq_ok hb
  cases hb
  exact ⟨rfl, rfl⟩

/-- Every course of a built catalog was indexable, and its students are entered under its id. -/
theorem students_of_build (hb : build d = .ok e) {c : Course} (hc : c ∈ e.courses.toList) :
    Indexable e.facultyById (batchIndex d.batches) c ∧
      ∃ ss, courseStudents (batchIndex d.batches) c = .ok ss ∧ e.studentsById[c.id]? = some ss := by
  obtain ⟨studs, -, -, hcourses, hstuds, hcs, -⟩ := build_eq_ok hb
  rw [indexCourses_eq_foldlM] at hcourses
  rw [hcs, List.toList_toArray] at hc
  obtain ⟨-, hall, -⟩ := foldlM_indexCourseStep_eq_ok _ 0 _ _ hcourses
  obtain ⟨hgood, -, ss, hss, hin⟩ := hall c hc
  exact ⟨hgood, ss, hss, hstuds ▸ hin⟩

/-- In an indexed catalog, the course found under an id is the listed course of that id. -/
theorem Indexed.course?_eq_some_iff (he : e.Indexed) {id : String} {c : Course} :
    e.course? id = some c ↔ c ∈ e.courses.toList ∧ c.id = id :=
  ⟨fun h ↦ ⟨mem_of_course? h, he.course?_id h⟩, fun ⟨hc, hid⟩ ↦ hid ▸ he.course?_self hc⟩

/-- Building again from a built catalog's records, with courses that agree with its own on the
kept ids, gives a catalog that keeps its slots, rooms and staff and those courses. -/
theorem keeps_of_rebuild (hb : build d = .ok e) {cs : List Course} {e' : Catalog}
    (hb' : build { e.toDataset with courses := cs } = .ok e') {keep : String → Prop}
    (hcs : ∀ {id}, keep id → ∀ c, c ∈ cs ∧ c.id = id ↔ c ∈ e.courses.toList ∧ c.id = id) :
    e.Keeps e' keep := by
  have he := indexed_of_build hb
  have he' := indexed_of_build hb'
  obtain ⟨-, hfac, hrooms, -, -, -, hrs, hfl, hrf, -⟩ := build_eq_ok hb
  obtain ⟨-, hfac', hrooms', -, -, hcs', hrs', -, hrf', -⟩ := build_eq_ok hb'
  obtain ⟨hbl, hav⟩ := records_of_build hb
  obtain ⟨-, hav'⟩ := records_of_build hb'
  have hfperm : d.faculty.Perm e.facultyList := hfl ▸ (List.mergeSort_perm _ _).symm
  -- rooms and slots are listed in order already
  have hrl : e.rooms.toList = byId Room.id d.rooms := by rw [hrs, List.toList_toArray]
  have hrooms_eq : byId Room.id e.rooms.toList = e.rooms.toList := by
    rw [hrl]
    exact byId_of_sublist Room.id (List.Sublist.refl _)
  have hslots : e'.slots = e.slots := by
    rw [slots_of_build hb']
    simp only [toDataset]
    rw [slots_of_build hb, List.toList_toArray]
    exact congrArg List.toArray (stableSort_slots_idem d.timeSlots)
  have hslotIndex : e'.slotIndex = e.slotIndex := by
    have h₁ := indexSlots_of_build hb'
    rw [hslots, indexSlots_of_build hb] at h₁
    exact (Prod.mk.inj (Except.ok.inj h₁)).1.symm
  have hroomIndex : e'.roomIndex = e.roomIndex := by
    simp only [toDataset] at hrooms'
    rw [hrooms_eq, hrl] at hrooms'
    exact Except.ok.inj (hrooms'.symm.trans hrooms)
  have hrooms_eq' : e'.rooms = e.rooms := by
    simp only [toDataset] at hrs'
    rw [hrs', hrooms_eq, Array.toArray_toList]
  obtain ⟨m', hm', hm'eq⟩ := indexFaculty_perm hfac hfperm
  have hfacById : ∀ id : String, e'.facultyById[id]? = e.facultyById[id]? := by
    simp only [toDataset] at hfac'
    rw [hm'] at hfac'
    cases hfac'
    exact hm'eq
  -- every listed course of the new catalog is one of the new course list, and back
  have hmem' : ∀ c, c ∈ e'.courses.toList ↔ c ∈ cs := by
    intro c
    simp only at hcs'
    rw [hcs', List.toList_toArray, byId, stableSort, List.mem_mergeSort]
  have hcourse : ∀ {id}, keep id → e'.course? id = e.course? id := by
    intro id hk
    refine Option.ext fun c ↦ ?_
    rw [he'.course?_eq_some_iff, he.course?_eq_some_iff, hmem', hcs hk]
  refine ⟨fun id ↦ by simp only [slot?, hslots, hslotIndex],
    fun id ↦ by simp only [room?, hrooms_eq', hroomIndex], fun id ↦ ?_,
    fun id ↦ by simp only [faculty?, hfacById], fun id ↦ ?_, hcourse, fun {id} hk hc ↦ ?_,
    fun {id} hk hc ↦ ?_⟩
  · simp only [toDataset] at hrf'
    rw [hrf', hrooms_eq, hrl, hrf]
  · have hnd : (d.faculty.map Faculty.id).Nodup := by
      have h := hfac
      rw [indexFaculty_eq_foldlM, foldlM_indexFacultyStep_eq_ok_iff] at h
      exact h.1.2
    rw [hav', hav]
    exact getElem?_foldl_insert_perm Faculty.id (fun f ↦ nameSet f.availableSlots) hfperm hnd id
  · obtain ⟨c, hc⟩ := Option.isSome_iff_exists.mp hc
    obtain ⟨hcm, rfl⟩ := he.course?_eq_some_iff.mp hc
    have hcm' : c ∈ e'.courses.toList := (hmem' c).mpr ((hcs hk c).mpr ⟨hcm, rfl⟩).1
    obtain ⟨-, ss, hss, hin⟩ := students_of_build hb hcm
    obtain ⟨-, ss', hss', hin'⟩ := students_of_build hb' hcm'
    -- the batches are found again under the same ids, so the students are the same
    have hbatch : ∀ id : String, (batchIndex e.batchList)[id]? = (batchIndex d.batches)[id]? := by
      rw [hbl]
      exact batchIndex_entries d.batches
    simp only [toDataset] at hss'
    rw [courseStudents_congr hbatch, hss] at hss'
    cases hss'
    simp only [students, hin, hin']
  · obtain ⟨c, hc⟩ := Option.isSome_iff_exists.mp hc
    obtain ⟨hcm, rfl⟩ := he.course?_eq_some_iff.mp hc
    have hcm' : c ∈ e'.courses.toList := (hmem' c).mpr ((hcs hk c).mpr ⟨hcm, rfl⟩).1
    rw [he'.featureSets_self hcm', he.featureSets_self hcm]

/-- `build` succeeds when its four checked indexes do. -/
theorem build_ok_of {fac : Std.HashMap String Faculty}
    {slots : Std.HashMap String Nat × Std.HashMap Int Int} {rooms : Std.HashMap String Nat}
    {courses : Std.HashMap String Nat × Std.HashMap String (List String)}
    (hf : indexFaculty d.faculty = .ok fac)
    (hs : indexSlots (stableSort (fun a b => if a.day == b.day then a.period < b.period else a.day < b.day)
      d.timeSlots) = .ok slots)
    (hr : indexRooms (byId Room.id d.rooms) = .ok rooms)
    (hc : indexCourses fac (batchIndex d.batches) (byId Course.id d.courses) = .ok courses) :
    ∃ e, build d = .ok e := by
  unfold byId at hr hc
  unfold batchIndex at hc
  simp only [build, hf, hs, hr, hc, bind, Except.bind, pure, Except.pure]
  exact ⟨_, rfl⟩

/-- Taking the courses of an id out of a built catalog always succeeds; the new catalog keeps
every other course, and has none of that id. -/
theorem withoutCourse_eq_ok (hb : build d = .ok e) (x : String) :
    ∃ e', e.withoutCourse x = .ok e' ∧ e.Keeps e' (· ≠ x) ∧ e'.course? x = none := by
  have he := indexed_of_build hb
  obtain ⟨-, hfac, hrooms, -, -, hcs, hrs, hfl, -⟩ := build_eq_ok hb
  obtain ⟨hbl, -⟩ := records_of_build hb
  have hfperm : d.faculty.Perm e.facultyList := hfl ▸ (List.mergeSort_perm _ _).symm
  obtain ⟨fac', hfac', hfaceq⟩ := indexFaculty_perm hfac hfperm
  have hbatch : ∀ id : String, (batchIndex e.batchList)[id]? = (batchIndex d.batches)[id]? := by
    rw [hbl]
    exact batchIndex_entries d.batches
  have hcl : e.courses.toList = byId Course.id d.courses := by rw [hcs, List.toList_toArray]
  -- the kept courses are in id order already, with distinct ids, and each was indexable
  have hkept : byId Course.id (e.courses.toList.filter (·.id != x)) =
      e.courses.toList.filter (·.id != x) :=
    byId_of_sublist Course.id (by rw [← hcl]; exact List.filter_sublist)
  have hnd : ((e.courses.toList.filter (·.id != x)).map (·.id)).Nodup :=
    he.courseIds_nodup.sublist (List.filter_sublist.map _)
  obtain ⟨courses, hcourses⟩ := @foldlM_indexCourseStep_of_indexable fac' (batchIndex e.batchList)
    _ 0 ({}, {}) hnd fun c hc ↦
      ⟨((students_of_build hb (List.mem_filter.mp hc).1).1.congr hfaceq hbatch), by simp⟩
  -- the slots and rooms are indexed as before, and the kept courses as just shown
  have hslots : indexSlots (stableSort
      (fun a b => if a.day == b.day then a.period < b.period else a.day < b.day) e.slots.toList) =
      .ok (e.slotIndex, e.lastPeriod) := by
    have h := indexSlots_of_build hb
    rw [slots_of_build hb, List.toList_toArray, stableSort_slots_idem]
    rwa [slots_of_build hb, List.toList_toArray] at h
  have hrooms' : indexRooms (byId Room.id e.rooms.toList) = .ok e.roomIndex := by
    rw [hrs, List.toList_toArray, byId_of_sublist Room.id (List.Sublist.refl _)]
    exact hrooms
  have hcourses' : indexCourses fac' (batchIndex e.batchList)
      (byId Course.id (e.courses.toList.filter (·.id != x))) = .ok courses := by
    rw [hkept, indexCourses_eq_foldlM]
    exact hcourses
  obtain ⟨e', hb'⟩ : ∃ e', build { e.toDataset with courses := e.courses.toList.filter (·.id != x) } =
      .ok e' :=
    build_ok_of hfac' hslots hrooms' hcourses'
  refine ⟨e', hb', keeps_of_rebuild hb hb' fun {id} hid c ↦ ?_, ?_⟩
  · -- a course of another id is kept or not at all
    constructor
    · rintro ⟨hc, rfl⟩
      exact ⟨(List.mem_filter.mp hc).1, rfl⟩
    · rintro ⟨hc, rfl⟩
      exact ⟨List.mem_filter.mpr ⟨hc, by simpa using hid⟩, rfl⟩
  · cases hx : e'.course? x with
    | none => rfl
    | some c =>
      have he' := indexed_of_build hb'
      obtain ⟨-, -, -, -, -, hcs', -⟩ := build_eq_ok hb'
      have hc := mem_of_course? hx
      rw [hcs', List.toList_toArray] at hc
      simp only at hc
      rw [hkept, List.mem_filter] at hc
      exact absurd (he'.course?_id hx) (by simpa using hc.2)

/-- A catalog built with one more course keeps every course of another id, and lists the new
one. -/
theorem keeps_of_withCourse (hb : build d = .ok e) {c : Course} {e' : Catalog}
    (h : e.withCourse c = .ok e') : e.Keeps e' (· ≠ c.id) ∧ c ∈ e'.courses.toList := by
  obtain ⟨-, -, -, -, -, hcs', -⟩ := build_eq_ok h
  refine ⟨keeps_of_rebuild hb h fun {id} hid c' ↦ ?_, ?_⟩
  · -- the new course has another id, so the courses of this id are the old ones
    simp only [List.mem_append, List.mem_singleton]
    constructor
    · rintro ⟨hc' | rfl, rfl⟩
      · exact ⟨hc', rfl⟩
      · exact absurd rfl hid
    · rintro ⟨hc', rfl⟩
      exact ⟨.inl hc', rfl⟩
  · rw [hcs', List.toList_toArray]
    simp only [byId, stableSort, List.mem_mergeSort, List.mem_append, List.mem_singleton, or_true]

end Catalog

end Timetabling
