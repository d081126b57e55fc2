import Timetabling.Proofs.Catalog.Queries

/-! # Catalogs built again

A catalog takes a course in or out by building again from its own records
(`Catalog.withCourse`, `Catalog.withoutCourse`). Those records come back sorted, the staff in id
order and the batches one per id, and none of that changes what a build makes of them: the staff
and batches are only looked up, and sorting depends only on the records of each key in their
order. So the catalog built again is the one built from the original dataset with its course list
changed the same way. Both builds refuse with the same fault, or both give the same catalog up to
the layout of its maps (`Catalog.Same`), which answers every query alike. -/

namespace Timetabling

namespace Catalog

/-- `e'` holds the records of `e` in the same order and the same entries in every index. -/
structure Same (e e' : Catalog) : Prop where
  courses : e'.courses = e.courses
  rooms : e'.rooms = e.rooms
  slots : e'.slots = e.slots
  facultyList : e'.facultyList = e.facultyList
  batchList : e'.batchList = e.batchList
  facultyById : ∀ k : String, e'.facultyById[k]? = e.facultyById[k]?
  courseIndex : ∀ k : String, e'.courseIndex[k]? = e.courseIndex[k]?
  roomIndex : ∀ k : String, e'.roomIndex[k]? = e.roomIndex[k]?
  slotIndex : ∀ k : String, e'.slotIndex[k]? = e.slotIndex[k]?
  studentsById : ∀ k : String, e'.studentsById[k]? = e.studentsById[k]?
  studentSets : ∀ k : String, e'.studentSets[k]? = e.studentSets[k]?
  featureSets : ∀ k : String, e'.featureSets[k]? = e.featureSets[k]?
  roomFeatures : ∀ k : String, e'.roomFeatures[k]? = e.roomFeatures[k]?
  available : ∀ k : String, e'.available[k]? = e.available[k]?
  lastPeriod : ∀ k : Int, e'.lastPeriod[k]? = e.lastPeriod[k]?

/-- Two outcomes of building: the same fault, or the same catalog. -/
def SameOutcome : Except CatalogError Catalog → Except CatalogError Catalog → Prop
  | .error x, .error y => x = y
  | .ok e, .ok e' => e.Same e'
  | _, _ => False

namespace Same

variable {e e' : Catalog}

/-! ## The same catalog answers alike -/

variable (h : e.Same e')
include h

theorem course? (id : String) : e'.course? id = e.course? id := by
  simp only [Catalog.course?, h.courseIndex, h.courses]

theorem faculty? (id : String) : e'.faculty? id = e.faculty? id := by
  simp only [Catalog.faculty?, h.facultyById]

theorem room? (id : String) : e'.room? id = e.room? id := by
  simp only [Catalog.room?, h.roomIndex, h.rooms]

theorem slot? (id : String) : e'.slot? id = e.slot? id := by
  simp only [Catalog.slot?, h.slotIndex, h.slots]

theorem slotOrder (id : String) : e'.slotOrder id = e.slotOrder id := by
  simp only [Catalog.slotOrder, h.slotIndex]

theorem students (id : String) : e'.students id = e.students id := by
  simp only [Catalog.students, h.studentsById]

theorem enrollment (id : String) : e'.enrollment id = e.enrollment id := by
  simp only [Catalog.enrollment, h.students]

theorem sharedStudents (a b : String) : e'.sharedStudents a b = e.sharedStudents a b := by
  simp only [Catalog.sharedStudents, h.studentSets, h.students]

theorem facultyAvailable (f s : String) : e'.facultyAvailable f s = e.facultyAvailable f s := by
  simp only [Catalog.facultyAvailable, h.available]

theorem roomSuits (r : Room) (c : Course) : e'.roomSuits r c = e.roomSuits r c := by
  simp only [Catalog.roomSuits, h.enrollment, h.roomFeatures, h.featureSets]

theorem isLastPeriod (s : TimeSlot) : e'.isLastPeriod s = e.isLastPeriod s := by
  simp only [Catalog.isLastPeriod, h.lastPeriod]

theorem totalSessions : e'.totalSessions = e.totalSessions := by
  simp only [Catalog.totalSessions, h.courses]

/-- The longest day is read off the last periods, whatever order the map keeps them in. -/
theorem periodsPerDay : e'.periodsPerDay = e.periodsPerDay := by
  unfold Catalog.periodsPerDay
  rw [Std.HashMap.fold_eq_foldl_toList, Std.HashMap.fold_eq_foldl_toList]
  refine (Std.HashMap.Equiv.toList_perm (Std.HashMap.Equiv.of_forall_getElem?_eq h.lastPeriod)).foldl_eq'
    (fun x _ y _ z ↦ ?_) 0
  simp only [max_assoc, max_comm (wrapInt64 (x.2 + 1))]

theorem toDataset : e'.toDataset = e.toDataset := by
  simp only [Catalog.toDataset, h.courses, h.rooms, h.slots, h.facultyList, h.batchList]

end Same

/-! ## What a build reads of staff, batches and order -/

/-- Sorting records with distinct ids by id gives the same list from any order. -/
theorem byId_eq_of_perm {α : Type} (id : α → String) {l l' : List α} (hp : l.Perm l')
    (hnd : (l.map id).Nodup) : byId id l = byId id l' := by
  have h₁ := pairwise_id_lt (byId_pairwise id l) (((byId_perm id l).map id).nodup_iff.mpr hnd)
  have h₂ := pairwise_id_lt (byId_pairwise id l')
    (((byId_perm id l').map id).nodup_iff.mpr ((hp.map id).nodup_iff.mp hnd))
  exact List.Perm.eq_of_pairwise (fun {_ _} _ _ hab hba ↦ absurd (lt_trans hab hba) (lt_irrefl _))
    h₁ h₂ ((byId_perm id l).trans (hp.trans (byId_perm id l').symm))

/-- Courses are indexed alike against staff and batch maps with the same entries. -/
theorem indexCourses_congr {fac fac' : Std.HashMap String Faculty}
    {batches batches' : Std.HashMap String Batch} (hfac : ∀ k : String, fac'[k]? = fac[k]?)
    (hbatches : ∀ k : String, batches'[k]? = batches[k]?) (cs : List Course) :
    indexCourses fac' batches' cs = indexCourses fac batches cs := by
  have hstep : indexCourseStep fac' batches' = indexCourseStep fac batches := by
    funext acc x
    simp only [indexCourseStep, Std.HashMap.contains_eq_isSome_getElem?, hfac,
      courseStudents_congr hbatches]
  rw [indexCourses_eq_foldlM, indexCourses_eq_foldlM, hstep]

/-- Two datasets whose staff index alike, whose batches are found alike, and whose slots, rooms and
courses sort alike build alike: the second build is the first with its own staff and batch
records. -/
theorem build_congr {d d' : Dataset} {fac fac' : Std.HashMap String Faculty}
    (hfac : indexFaculty d.faculty = .ok fac) (hfac' : indexFaculty d'.faculty = .ok fac')
    (hentries : ∀ k : String, fac'[k]? = fac[k]?)
    (hbatches : ∀ k : String, (batchIndex d'.batches)[k]? = (batchIndex d.batches)[k]?)
    (hslots : stableSort (fun a b => if a.day == b.day then a.period < b.period else a.day < b.day)
      d'.timeSlots = stableSort (fun a b => if a.day == b.day then a.period < b.period else a.day < b.day)
      d.timeSlots)
    (hrooms : byId Room.id d'.rooms = byId Room.id d.rooms)
    (hcourses : byId Course.id d'.courses = byId Course.id d.courses) :
    build d' = (build d).map fun e ↦ { e with
      facultyById := fac'
      facultyList := byId Faculty.id d'.faculty
      batchList := byId Batch.id ((batchIndex d'.batches).toList.map (·.2))
      available := d'.faculty.foldl (fun m f => m.insert f.id (nameSet f.availableSlots)) {} } := by
  have hc := indexCourses_congr hentries hbatches (byId Course.id d.courses)
  unfold byId at hrooms hcourses hc
  unfold batchIndex at hc
  unfold build
  rw [hfac, hfac', hslots, hrooms, hcourses]
  simp only [bind, Except.bind]
  rw [hc]
  -- both builds now index the same slots, rooms and courses, in the same order
  split
  · rfl
  · split
    · rfl
    · split
      · rfl
      · rfl

/-- Building alike, as in `build_congr`, and sorting the staff alike gives the same outcome. -/
theorem sameOutcome_of_congr {d d' : Dataset} {fac fac' : Std.HashMap String Faculty}
    (hfac : indexFaculty d.faculty = .ok fac) (hfac' : indexFaculty d'.faculty = .ok fac')
    (hentries : ∀ k : String, fac'[k]? = fac[k]?)
    (hfl : byId Faculty.id d'.faculty = byId Faculty.id d.faculty)
    (hbatches : ∀ k : String, (batchIndex d'.batches)[k]? = (batchIndex d.batches)[k]?)
    (hslots : stableSort (fun a b => if a.day == b.day then a.period < b.period else a.day < b.day)
      d'.timeSlots = stableSort (fun a b => if a.day == b.day then a.period < b.period else a.day < b.day)
      d.timeSlots)
    (hrooms : byId Room.id d'.rooms = byId Room.id d.rooms)
    (hcourses : byId Course.id d'.courses = byId Course.id d.courses) :
    SameOutcome (build d) (build d') := by
  rw [build_congr hfac hfac' hentries hbatches hslots hrooms hcourses]
  cases hb : build d with
  | error x => rfl
  | ok e =>
    obtain ⟨-, hfe, -, -, -, -, -, hel, -⟩ := build_eq_ok hb
    obtain ⟨hbl, hav⟩ := records_of_build hb
    rw [hfac] at hfe
    cases hfe
    have hnd : (d.faculty.map Faculty.id).Nodup := by
      rw [indexFaculty_eq_foldlM, foldlM_indexFacultyStep_eq_ok_iff] at hfac
      exact hfac.1.2
    -- the staff are the same records in another order, each under a distinct id
    have hperm : d.faculty.Perm d'.faculty :=
      (byId_perm Faculty.id d.faculty).symm.trans (hfl ▸ byId_perm Faculty.id d'.faculty)
    have hbperm : ((batchIndex d'.batches).toList.map (·.2)).Perm
        ((batchIndex d.batches).toList.map (·.2)) :=
      (Std.HashMap.Equiv.toList_perm (Std.HashMap.Equiv.of_forall_getElem?_eq hbatches)).map _
    refine ⟨rfl, rfl, rfl, hfl.trans hel.symm, ?_, hentries, fun _ ↦ rfl, fun _ ↦ rfl, fun _ ↦ rfl,
      fun _ ↦ rfl, fun _ ↦ rfl, fun _ ↦ rfl, fun _ ↦ rfl, fun k ↦ ?_, fun _ ↦ rfl⟩
    · rw [hbl]
      exact byId_eq_of_perm Batch.id hbperm (batchIndex_ids_nodup d'.batches)
    · rw [hav]
      exact getElem?_foldl_insert_perm Faculty.id (fun f ↦ nameSet f.availableSlots) hperm hnd k

variable {d : Dataset} {e : Catalog}

/-- Building again from a built catalog's records, with a course list that sorts as another does,
gives what building the dataset with that other course list gives. -/
theorem rebuild_sameOutcome (hb : build d = .ok e) {cs cs' : List Course}
    (hcourses : byId Course.id cs' = byId Course.id cs) :
    SameOutcome (build { d with courses := cs }) (build { e.toDataset with courses := cs' }) := by
  obtain ⟨-, hfac, -, -, -, -, hrs, hfl, -⟩ := build_eq_ok hb
  obtain ⟨hbl, -⟩ := records_of_build hb
  obtain ⟨fac', hfac', hentries⟩ :=
    indexFaculty_perm hfac (hfl ▸ (byId_perm Faculty.id d.faculty).symm)
  refine sameOutcome_of_congr hfac hfac' hentries ?_ ?_ ?_ ?_ hcourses
  · rw [toDataset, hfl]
    exact byId_of_sublist Faculty.id (List.Sublist.refl _)
  · rw [toDataset, hbl]
    exact batchIndex_entries d.batches
  · rw [toDataset, slots_of_build hb, List.toList_toArray]
    exact stableSort_slots_idem d.timeSlots
  · rw [toDataset, hrs, List.toList_toArray]
    exact byId_of_sublist Room.id (List.Sublist.refl _)

/-- Adding a course to a built catalog gives what building the dataset with the course appended
gives: the same fault, or the same catalog. -/
theorem withCourse_sameOutcome (hb : build d = .ok e) (c : Course) :
    SameOutcome (build { d with courses := d.courses ++ [c] }) (e.withCourse c) := by
  obtain ⟨-, -, -, -, -, hcs, -⟩ := build_eq_ok hb
  refine rebuild_sameOutcome hb ?_
  rw [hcs, List.toList_toArray]
  exact stableSort_stableSort_append (fun _ _ ↦ decide_eq_true_iff) d.courses [c]

/-- Taking the courses of an id out of a built catalog gives what building the dataset without
them gives. -/
theorem withoutCourse_sameOutcome (hb : build d = .ok e) (x : String) :
    SameOutcome (build { d with courses := d.courses.filter (·.id != x) }) (e.withoutCourse x) := by
  obtain ⟨-, -, -, -, -, hcs, -⟩ := build_eq_ok hb
  refine rebuild_sameOutcome hb ?_
  rw [hcs, List.toList_toArray]
  exact stableSort_filter_stableSort (fun _ _ ↦ decide_eq_true_iff) d.courses _

end Catalog

end Timetabling
