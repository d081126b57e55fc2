import Mathlib.Data.List.Nodup
import Timetabling.Catalog.Basic

/-! # What building a catalog guarantees

`Catalog.build` refuses a dataset with a missing or repeated id, so the catalog it returns has
indexes that can be trusted: the course found under an id is the course of that id, every course
is found under its own id and none is found twice, and likewise for rooms and staff. The feature
sets it keeps are the non-empty names of the records' lists.

`Catalog.Indexed` collects these facts, and `Catalog.indexed_of_build` proves them of every
catalog `build` returns. Everything that reasons about timetables over a catalog starts from
here. -/

namespace Timetabling

/-! ## Distinct names -/

/-- The fold of `dedupStrings` collects the names it has seen. -/
theorem mem_foldl_dedup (xs : List String) :
    ∀ acc : List String × Std.HashSet String, (∀ y, y ∈ acc.1 ↔ y ∈ acc.2) → ∀ y,
      y ∈ (xs.foldl (fun (acc : List String × Std.HashSet String) x =>
        if acc.2.contains x then acc else (x :: acc.1, acc.2.insert x)) acc).1 ↔ y ∈ acc.1 ∨ y ∈ xs := by
  induction xs with
  | nil => simp
  | cons x xs ih =>
    intro acc hacc y
    rw [List.foldl_cons]
    split
    · rename_i hx
      rw [ih acc hacc y]
      have hxmem : x ∈ acc.1 := (hacc x).mpr (Std.HashSet.contains_iff_mem.mp hx)
      grind
    · rw [ih _ (fun z ↦ by simp only [List.mem_cons, Std.HashSet.mem_insert, hacc z, beq_iff_eq]; tauto) y]
      simp only [List.mem_cons]
      tauto

@[simp] theorem mem_dedupStrings {xs : List String} {y : String} : y ∈ dedupStrings xs ↔ y ∈ xs := by
  rw [dedupStrings, List.mem_reverse, mem_foldl_dedup xs ([], {}) (by simp)]
  simp

namespace Catalog

/-! ## Successful `Except` computations -/

/-- A successful `Except` computation passed its first step. -/
theorem exists_of_bind_eq_ok {ε α β : Type} {x : Except ε α} {f : α → Except ε β} {b : β}
    (h : x >>= f = .ok b) : ∃ a, x = .ok a ∧ f a = .ok b := by
  cases x with
  | error err => cases h
  | ok a => exact ⟨a, rfl, h⟩

/-- A property that every successful step keeps holds at the end of a successful fold. -/
theorem foldlM_invariant {ε α β : Type} (P : β → Prop) {f : β → α → Except ε β}
    (hf : ∀ {b b' : β} {a : α}, P b → f b a = .ok b' → P b') :
    ∀ (xs : List α) {b r : β}, P b → xs.foldlM f b = .ok r → P r
  | [], _, _, hb, hr => by
    cases hr
    exact hb
  | x :: xs, _, _, hb, hr => by
    rw [List.foldlM_cons] at hr
    obtain ⟨b', hx, hxs⟩ := exists_of_bind_eq_ok hr
    exact foldlM_invariant P hf xs (hf hb hx) hxs

/-- Each element of a successful run of `mapM` gave a result. -/
theorem exists_of_mapM_eq_ok {α β ε : Type} {f : α → Except ε β} :
    ∀ {xs : List α} {ys : List β}, xs.mapM f = .ok ys → ∀ x ∈ xs, ∃ y, f x = .ok y
  | [], _, _, _, hx => absurd hx List.not_mem_nil
  | x :: xs, ys, h, z, hz => by
    rw [List.mapM_cons] at h
    obtain ⟨y, hy, h⟩ := exists_of_bind_eq_ok h
    obtain ⟨ys', hys', -⟩ := exists_of_bind_eq_ok h
    rcases List.mem_cons.mp hz with rfl | hz
    · exact ⟨y, hy⟩
    · exact exists_of_mapM_eq_ok hys' z hz

/-- A run of `mapM` in which every element succeeds collects the results. -/
theorem mapM_eq_ok_map {α β ε : Type} {f : α → Except ε β} {g : α → β} :
    ∀ {xs : List α}, (∀ x ∈ xs, f x = .ok (g x)) → xs.mapM f = .ok (xs.map g)
  | [], _ => rfl
  | x :: xs, h => by
    rw [List.mapM_cons, h x List.mem_cons_self,
      mapM_eq_ok_map fun y hy ↦ h y (List.mem_cons_of_mem _ hy)]
    rfl

/-! ## Name sets -/

theorem mem_foldl_nameSet (xs : List String) (s : Std.HashSet String) (x : String) :
    x ∈ xs.foldl (fun s x => if x == "" then s else s.insert x) s ↔ x ∈ s ∨ (x ≠ "" ∧ x ∈ xs) := by
  induction xs generalizing s with
  | nil => simp
  | cons y ys ih =>
    rw [List.foldl_cons, ih]
    -- the empty name is skipped; any other is added, and then found either way
    by_cases hy : y = ""
    · subst hy
      simp only [beq_self_eq_true, if_true, List.mem_cons]
      constructor
      · rintro (h | ⟨hx, h⟩)
        · exact .inl h
        · exact .inr ⟨hx, .inr h⟩
      · rintro (h | ⟨hx, rfl | h⟩)
        · exact .inl h
        · exact absurd rfl hx
        · exact .inr ⟨hx, h⟩
    · have hyb : (y == "") = false := by simpa using hy
      simp only [hyb, Bool.false_eq_true, if_false, Std.HashSet.mem_insert, beq_iff_eq,
        List.mem_cons]
      grind

/-- A name set holds exactly the non-empty names of its list. -/
@[simp] theorem mem_nameSet {xs : List String} {x : String} : x ∈ nameSet xs ↔ x ≠ "" ∧ x ∈ xs := by
  rw [nameSet, mem_foldl_nameSet]
  simp

/-! ## Student lists -/

/-- The fold of `dedupStrings` keeps a list without repeats that holds exactly the names seen. -/
theorem foldl_dedup (xs : List String) :
    ∀ acc : List String × Std.HashSet String, acc.1.Nodup → (∀ y, y ∈ acc.1 ↔ y ∈ acc.2) →
      let r := xs.foldl (fun (acc : List String × Std.HashSet String) x =>
        if acc.2.contains x then acc else (x :: acc.1, acc.2.insert x)) acc
      r.1.Nodup ∧ ∀ y, y ∈ r.1 ↔ y ∈ r.2 := by
  induction xs with
  | nil => exact fun _ hnd hmem ↦ ⟨hnd, hmem⟩
  | cons x xs ih =>
    intro acc hnd hmem
    rw [List.foldl_cons]
    split
    · exact ih acc hnd hmem
    · rename_i hx
      have hfresh : x ∉ acc.1 := fun h ↦ hx (Std.HashSet.contains_iff_mem.mpr ((hmem x).mp h))
      refine ih _ (List.nodup_cons.mpr ⟨hfresh, hnd⟩) fun y ↦ ?_
      rw [List.mem_cons, Std.HashSet.mem_insert, hmem y, beq_iff_eq]
      exact or_congr_left eq_comm

theorem dedupStrings_nodup (xs : List String) : (dedupStrings xs).Nodup :=
  List.nodup_reverse.mpr (foldl_dedup xs ([], {}) List.nodup_nil (by simp)).1

theorem sortStrings_nodup {xs : List String} (h : xs.Nodup) : (sortStrings xs).Nodup :=
  (List.mergeSort_perm _ _).nodup_iff.mpr h

/-- The students found for a course are listed once each. -/
theorem courseStudents_nodup {batches : Std.HashMap String Batch} {c : Course} {ss : List String}
    (h : courseStudents batches c = .ok ss) : ss.Nodup := by
  unfold courseStudents at h
  obtain ⟨_, -, hss⟩ := exists_of_bind_eq_ok h
  cases hss
  exact sortStrings_nodup (dedupStrings_nodup _)

/-! ## Indexes by position

Rooms and courses are indexed the same way: each record, in sorted order, is entered under its
id at its position, after checking that the id is not entered yet. -/

/-- Every entry of an index points at a record of the list that carries the entry's id. -/
def Positions {α : Type} (key : α → String) (xs : List α) (idx : Std.HashMap String Nat) : Prop :=
  ∀ (id : String) (i : Nat), idx[id]? = some i → ∃ x, xs[i]? = some x ∧ key x = id

/-- A run of an indexing fold whose successful steps enter a fresh id at the record's position,
for records that satisfy `good`: every entry points at a record of its id, earlier entries never
change, and every record processed is entered at its position and is good. -/
theorem foldlM_positions {α γ ε : Type} {key : α → String} {good : α → Prop}
    {proj : γ → Std.HashMap String Nat} {step : γ → α × Nat → Except ε γ} {xs : List α}
    (hstep : ∀ acc x res, step acc x = .ok res →
      ¬ (proj acc).contains (key x.1) ∧ good x.1 ∧ proj res = (proj acc).insert (key x.1) x.2) :
    ∀ (l : List (α × Nat)) (acc res : γ), (∀ x ∈ l, xs[x.2]? = some x.1) →
      Positions key xs (proj acc) → l.foldlM step acc = .ok res →
      Positions key xs (proj res) ∧ (∀ id, (proj acc).contains id → (proj res)[id]? = (proj acc)[id]?) ∧
        (∀ x ∈ l, (proj res)[key x.1]? = some x.2 ∧ good x.1) := by
  intro l
  induction l with
  | nil =>
    intro acc res _ hacc h
    cases h
    exact ⟨hacc, fun _ _ => rfl, by simp⟩
  | cons x rest ih =>
    intro acc res hl hacc h
    rw [List.foldlM_cons] at h
    cases hs : step acc x with
    | error err => rw [hs] at h; cases h
    | ok acc' =>
      rw [hs] at h
      obtain ⟨hnew, hgood, hacc'⟩ := hstep acc x acc' hs
      have hx : xs[x.2]? = some x.1 := hl x (List.mem_cons_self ..)
      have hinv : Positions key xs (proj acc') := by
        intro id j hj
        rw [hacc', Std.HashMap.getElem?_insert] at hj
        split at hj
        · rename_i heq
          cases hj
          exact ⟨x.1, hx, by simpa using heq⟩
        · exact hacc id j hj
      obtain ⟨hres, hframe, hall⟩ := ih acc' res (fun y hy => hl y (List.mem_cons_of_mem _ hy)) hinv h
      refine ⟨hres, ?_, ?_⟩
      · intro id hid
        have hne : key x.1 ≠ id := fun heq => hnew (heq ▸ hid)
        rw [hframe id (by rw [hacc']; simp [hid]), hacc', Std.HashMap.getElem?_insert]
        simp [hne]
      · intro y hy
        rcases List.mem_cons.mp hy with rfl | hy
        · refine ⟨?_, hgood⟩
          rw [hframe (key y.1) (by rw [hacc']; simp), hacc']
          simp
        · exact hall y hy

/-- The result of an indexing fold over a whole list, read back: every record is found at its
own position, no two records share an id, and every record is good. -/
theorem positions_of_foldlM {α γ ε : Type} (key : α → String) (good : α → Prop)
    (proj : γ → Std.HashMap String Nat) {step : γ → α × Nat → Except ε γ} {xs : List α}
    (hstep : ∀ acc x res, step acc x = .ok res →
      ¬ (proj acc).contains (key x.1) ∧ good x.1 ∧ proj res = (proj acc).insert (key x.1) x.2)
    {init res : γ} (hinit : proj init = {}) (h : xs.zipIdx.foldlM step init = .ok res) :
    Positions key xs (proj res) ∧ (∀ i x, xs[i]? = some x → (proj res)[key x]? = some i) ∧
      (xs.map key).Nodup ∧ ∀ x ∈ xs, good x := by
  have hempty : Positions key xs (proj init) := by
    intro id i hi
    simp [hinit] at hi
  obtain ⟨hpos, -, hall⟩ := foldlM_positions hstep xs.zipIdx init res
    (fun x hx => List.mem_zipIdx_iff_getElem?.mp hx) hempty h
  have hat : ∀ i x, xs[i]? = some x → (proj res)[key x]? = some i := fun i x hi =>
    (hall (x, i) (List.mem_zipIdx_iff_getElem?.mpr hi)).1
  refine ⟨hpos, hat, ?_, ?_⟩
  · rw [List.nodup_iff_getElem?_ne_getElem?]
    intro i j hij hj heq
    have hi : i < xs.length := by simp at hj; omega
    have hj' : j < xs.length := by simpa using hj
    rw [List.getElem?_map, List.getElem?_eq_getElem hi, List.getElem?_map,
      List.getElem?_eq_getElem hj'] at heq
    simp only [Option.map_some, Option.some.injEq] at heq
    have h1 := hat i xs[i] (List.getElem?_eq_getElem hi)
    have h2 := hat j xs[j] (List.getElem?_eq_getElem hj')
    rw [heq, h2] at h1
    simp at h1
    omega
  · intro x hx
    obtain ⟨i, hi⟩ := List.getElem?_of_mem hx
    exact (hall (x, i) (List.mem_zipIdx_iff_getElem?.mpr hi)).2

/-! ## Maps filled from a list with distinct keys -/

theorem getElem?_foldl_insert_of_not_mem {α β : Type} (key : α → String) (val : α → β)
    (l : List α) (m : Std.HashMap String β) {k : String} (hk : k ∉ l.map key) :
    (l.foldl (fun m y => m.insert (key y) (val y)) m)[k]? = m[k]? := by
  induction l generalizing m with
  | nil => rfl
  | cons y ys ih =>
    simp only [List.map_cons, List.mem_cons, not_or] at hk
    rw [List.foldl_cons, ih _ hk.2, Std.HashMap.getElem?_insert]
    simp [Ne.symm hk.1]

/-- Filling a map from a list whose keys are distinct enters every element under its key. -/
theorem getElem?_foldl_insert_of_nodup {α β : Type} (key : α → String) (val : α → β) :
    ∀ (l : List α) (m : Std.HashMap String β), (l.map key).Nodup → ∀ x ∈ l,
      (l.foldl (fun m y => m.insert (key y) (val y)) m)[key x]? = some (val x) := by
  intro l
  induction l with
  | nil => intro m _ x hx; simp at hx
  | cons y ys ih =>
    intro m hnd x hx
    rw [List.map_cons, List.nodup_cons] at hnd
    rw [List.foldl_cons]
    rcases List.mem_cons.mp hx with rfl | hx
    · rw [getElem?_foldl_insert_of_not_mem key val ys _ hnd.1]
      simp
    · exact ih _ hnd.2 x hx

/-! ## The steps of `build` -/

/-- One step of indexing courses: the indexes so far and a course at its position. -/
def indexCourseStep (fac : Std.HashMap String Faculty) (batches : Std.HashMap String Batch)
    (acc : Std.HashMap String Nat × Std.HashMap String (List String)) (x : Course × Nat) :
    Except CatalogError (Std.HashMap String Nat × Std.HashMap String (List String)) := do
  let (idx, studs) := acc
  let (c, i) := x
  if c.id == "" then throw .courseIdMissing
  if idx.contains c.id then throw (.duplicateCourse c.id)
  if c.sessions < 0 then throw (.negativeSessions c.id)
  if !fac.contains c.facultyId then throw (.unknownFaculty c.id c.facultyId)
  let ss ← courseStudents batches c
  pure (idx.insert c.id i, studs.insert c.id ss)

theorem indexCourses_eq_foldlM (fac : Std.HashMap String Faculty)
    (batches : Std.HashMap String Batch) (cs : List Course) :
    indexCourses fac batches cs = cs.zipIdx.foldlM (indexCourseStep fac batches) ({}, {}) := rfl

/-- A course is indexed only under a fresh id and with a session count that is not negative,
with the students `courseStudents` finds for it. -/
theorem indexCourseStep_eq_ok {fac : Std.HashMap String Faculty}
    {batches : Std.HashMap String Batch} {acc res : Std.HashMap String Nat × Std.HashMap String (List String)}
    {x : Course × Nat} (h : indexCourseStep fac batches acc x = .ok res) :
    ¬ acc.1.contains x.1.id ∧ 0 ≤ x.1.sessions ∧ res.1 = acc.1.insert x.1.id x.2 ∧
      ∃ ss, courseStudents batches x.1 = .ok ss ∧ res.2 = acc.2.insert x.1.id ss := by
  obtain ⟨idx, studs⟩ := acc
  obtain ⟨c, i⟩ := x
  dsimp only
  simp only [indexCourseStep] at h
  split at h
  · cases h
  split at h
  · cases h
  rename_i hdup
  split at h
  · cases h
  rename_i hneg
  split at h
  · cases h
  cases hs : courseStudents batches c with
  | error err => simp [hs] at h
  | ok ss =>
    simp only [hs] at h
    cases h
    exact ⟨hdup, by omega, rfl, ss, rfl, rfl⟩

/-- One step of indexing rooms. -/
def indexRoomStep (idx : Std.HashMap String Nat) (x : Room × Nat) :
    Except CatalogError (Std.HashMap String Nat) :=
  if x.1.id == "" then .error .roomIdMissing
  else if idx.contains x.1.id then .error (.duplicateRoom x.1.id)
  else pure (idx.insert x.1.id x.2)

theorem indexRooms_eq_foldlM (rooms : List Room) :
    indexRooms rooms = rooms.zipIdx.foldlM indexRoomStep {} := rfl

/-- A room is indexed exactly when its id is given and not indexed yet. -/
theorem indexRoomStep_eq_ok_iff {idx res : Std.HashMap String Nat} {r : Room} {i : Nat} :
    indexRoomStep idx (r, i) = .ok res ↔ r.id ≠ "" ∧ ¬idx.contains r.id ∧ res = idx.insert r.id i := by
  by_cases hid : r.id = ""
  · simp [indexRoomStep, hid]
  · by_cases hdup : idx.contains r.id
    · simp [indexRoomStep, hid, hdup]
    · simp only [indexRoomStep, hid, beq_iff_eq, if_false, hdup, Bool.false_eq_true, pure,
        Except.pure, Except.ok.injEq, ne_eq, not_false_eq_true, true_and]
      exact eq_comm

theorem indexRoomStep_eq_ok {idx res : Std.HashMap String Nat} {x : Room × Nat}
    (h : indexRoomStep idx x = .ok res) : ¬ idx.contains x.1.id ∧ res = idx.insert x.1.id x.2 := by
  obtain ⟨r, i⟩ := x
  obtain ⟨-, hdup, hres⟩ := indexRoomStep_eq_ok_iff.mp h
  exact ⟨hdup, hres⟩

/-- One step of indexing staff. -/
def indexFacultyStep (m : Std.HashMap String Faculty) (f : Faculty) :
    Except CatalogError (Std.HashMap String Faculty) :=
  if f.id == "" then .error .facultyIdMissing
  else if m.contains f.id then .error (.duplicateFaculty f.id)
  else pure (m.insert f.id f)

theorem indexFaculty_eq_foldlM (fs : List Faculty) :
    indexFaculty fs = fs.foldlM indexFacultyStep {} := rfl

/-- Staff are entered under their ids, and an entry is never replaced. -/
theorem foldlM_indexFacultyStep :
    ∀ (l : List Faculty) (acc res : Std.HashMap String Faculty),
      l.foldlM indexFacultyStep acc = .ok res →
      (∀ id, acc.contains id → res[id]? = acc[id]?) ∧ ∀ f ∈ l, res[f.id]? = some f := by
  intro l
  induction l with
  | nil => intro acc res h; cases h; exact ⟨fun _ _ => rfl, by simp⟩
  | cons f rest ih =>
    intro acc res h
    rw [List.foldlM_cons] at h
    unfold indexFacultyStep at h
    split at h
    · cases h
    split at h
    · cases h
    rename_i hdup
    obtain ⟨hframe, hall⟩ := ih _ res h
    refine ⟨fun id hid => ?_, fun g hg => ?_⟩
    · have hne : f.id ≠ id := fun heq => hdup (heq ▸ hid)
      rw [hframe id (by simp [hid]), Std.HashMap.getElem?_insert]
      simp [hne]
    · rcases List.mem_cons.mp hg with rfl | hg
      · rw [hframe g.id (by simp)]
        simp
      · exact hall g hg

/-- The records of a dataset in id order, as `build` keeps them. -/
def byId {α : Type} (id : α → String) (xs : List α) : List α :=
  stableSort (fun a b => decide (id a < id b)) xs

/-- The parts of a built catalog that come from its checked indexes. -/
theorem build_eq_ok {d : Dataset} {e : Catalog} (h : build d = .ok e) :
    ∃ studs, indexFaculty d.faculty = .ok e.facultyById ∧
      indexRooms (byId Room.id d.rooms) = .ok e.roomIndex ∧
      indexCourses e.facultyById (d.batches.foldl (fun m b => m.insert b.id b) {})
        (byId Course.id d.courses) = .ok (e.courseIndex, studs) ∧ e.studentsById = studs ∧
      e.courses = (byId Course.id d.courses).toArray ∧ e.rooms = (byId Room.id d.rooms).toArray ∧
      e.facultyList = byId Faculty.id d.faculty ∧
      e.roomFeatures = (byId Room.id d.rooms).foldl (fun m r => m.insert r.id (nameSet r.features)) {} ∧
      e.featureSets = (byId Course.id d.courses).foldl
        (fun m c => m.insert c.id (nameSet c.requiredFeatures)) {} := by
  unfold build at h
  -- each checked index either refuses the dataset or is the one the catalog keeps
  obtain ⟨fac, h1, h⟩ := exists_of_bind_eq_ok h
  obtain ⟨sl, -, h⟩ := exists_of_bind_eq_ok h
  obtain ⟨ri, h3, h⟩ := exists_of_bind_eq_ok h
  obtain ⟨ci, h4, h⟩ := exists_of_bind_eq_ok h
  cases h
  exact ⟨ci.2, h1, h3, h4, rfl, rfl, rfl, rfl, rfl, rfl⟩

/-! ## Indexed catalogs -/

/-- The facts about its indexes that every catalog `build` returns satisfies. -/
structure Indexed (e : Catalog) : Prop where
  /-- The course found under an id carries that id. -/
  course?_id : ∀ {id c}, e.course? id = some c → c.id = id
  /-- Every course is found under its own id. -/
  course?_self : ∀ {c}, c ∈ e.courses.toList → e.course? c.id = some c
  courseIds_nodup : (e.courses.toList.map (·.id)).Nodup
  sessions_nonneg : ∀ {c}, c ∈ e.courses.toList → 0 ≤ c.sessions
  /-- The room found under an id is a room of the catalog that carries that id. -/
  room?_id : ∀ {id r}, e.room? id = some r → r.id = id ∧ r ∈ e.rooms.toList
  roomFeatures_self : ∀ {r}, r ∈ e.rooms.toList → e.roomFeatures[r.id]? = some (nameSet r.features)
  featureSets_self : ∀ {c}, c ∈ e.courses.toList →
    e.featureSets[c.id]? = some (nameSet c.requiredFeatures)
  /-- Every member of staff listed is found under their id. -/
  faculty?_self : ∀ {f}, f ∈ e.facultyList → e.faculty? f.id = some f
  /-- No student is listed twice for a course. -/
  students_nodup : ∀ id, (e.students id).Nodup

/-- A course found under an id is one of the catalog's courses. -/
theorem mem_of_course? {e : Catalog} {id : String} {c : Course} (h : e.course? id = some c) :
    c ∈ e.courses.toList := by
  unfold course? at h
  obtain ⟨i, -, hi⟩ := Option.bind_eq_some_iff.mp h
  exact Array.mem_toList_iff.mpr (Array.mem_of_getElem? hi)

/-- Every catalog `build` returns is indexed. -/
theorem indexed_of_build {d : Dataset} {e : Catalog} (h : build d = .ok e) : e.Indexed := by
  obtain ⟨studs, hfac, hrooms, hcourses, hstuds, hcs, hrs, hfl, hrf, hfs⟩ := build_eq_ok h
  rw [indexCourses_eq_foldlM] at hcourses
  rw [indexRooms_eq_foldlM] at hrooms
  rw [indexFaculty_eq_foldlM] at hfac
  obtain ⟨cpos, cat, cnodup, cgood⟩ := positions_of_foldlM Course.id (fun c ↦ 0 ≤ c.sessions)
    Prod.fst (fun _ _ _ hs ↦ (indexCourseStep_eq_ok hs).imp_right fun h ↦ ⟨h.1, h.2.1⟩) rfl
    hcourses
  obtain ⟨rpos, -, rnodup, -⟩ := positions_of_foldlM Room.id (fun _ ↦ True) id
    (fun _ _ _ hs ↦ ⟨(indexRoomStep_eq_ok hs).1, trivial, (indexRoomStep_eq_ok hs).2⟩) rfl hrooms
  have course?_eq : ∀ id, e.course? id = e.courseIndex[id]? >>= fun i => (byId Course.id d.courses)[i]? := by
    intro id
    simp [course?, hcs]
  -- every student list entered comes from `courseStudents`
  have hnodup : ∀ (id : String) (ss : List String), studs[id]? = some ss → ss.Nodup := by
    refine foldlM_invariant
      (fun (acc : Std.HashMap String Nat × Std.HashMap String (List String)) ↦
        ∀ (id : String) (ss : List String), acc.2[id]? = some ss → ss.Nodup)
      (fun {acc acc' x} hacc hs ↦ ?_) _ (by simp) hcourses
    obtain ⟨-, -, -, ss, hss, h2⟩ := indexCourseStep_eq_ok hs
    intro id ss' hid
    rw [h2, Std.HashMap.getElem?_insert] at hid
    split at hid
    · cases hid
      exact courseStudents_nodup hss
    · exact hacc id ss' hid
  refine ⟨?_, ?_, ?_, ?_, ?_, ?_, ?_, ?_, ?_⟩
  · intro id c hc
    rw [course?_eq] at hc
    obtain ⟨i, hi, hci⟩ := Option.bind_eq_some_iff.mp hc
    obtain ⟨c', hc', hid⟩ := cpos id i hi
    rw [hci] at hc'
    cases hc'
    exact hid
  · intro c hc
    rw [hcs, List.toList_toArray] at hc
    obtain ⟨i, hi⟩ := List.getElem?_of_mem hc
    rw [course?_eq, cat i c hi]
    exact hi
  · rw [hcs, List.toList_toArray]
    exact cnodup
  · intro c hc
    rw [hcs, List.toList_toArray] at hc
    exact cgood c hc
  · intro id r hr
    unfold room? at hr
    obtain ⟨i, hi, hri⟩ := Option.bind_eq_some_iff.mp hr
    rw [hrs, List.getElem?_toArray] at hri
    obtain ⟨r', hr', hid⟩ := rpos id i hi
    rw [hri] at hr'
    cases hr'
    refine ⟨hid, ?_⟩
    rw [hrs, List.toList_toArray]
    exact List.mem_of_getElem? hri
  · intro r hr
    rw [hrs, List.toList_toArray] at hr
    rw [hrf]
    exact getElem?_foldl_insert_of_nodup Room.id (fun r => nameSet r.features) _ _ rnodup r hr
  · intro c hc
    rw [hcs, List.toList_toArray] at hc
    rw [hfs]
    exact getElem?_foldl_insert_of_nodup Course.id (fun c => nameSet c.requiredFeatures) _ _ cnodup c hc
  · intro f hf
    rw [hfl, byId, stableSort, List.mem_mergeSort] at hf
    exact (foldlM_indexFacultyStep d.faculty {} e.facultyById hfac).2 f hf
  · intro id
    unfold students
    cases hs : e.studentsById[id]? with
    | none => exact List.nodup_nil
    | some ss =>
      rw [hstuds] at hs
      exact hnodup id ss hs

end Catalog

end Timetabling
