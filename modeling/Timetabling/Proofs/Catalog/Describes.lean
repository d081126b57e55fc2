import Timetabling.Proofs.Catalog.Same

/-! # A built catalog describes its dataset

`Catalog.build` succeeds exactly on valid datasets, and the catalog it returns answers every query
from the dataset's records (`Catalog.Describes`): records sorted stably, each lookup finding the
one record of an id, a course's students gathered from its own list and its batches', the counts
of students as sizes of these sets, the last period of each day, and a course added or taken
away as building again would.

A course's own student list loses its empty ids; its batches' lists are taken whole, so an empty
id listed in a batch becomes a student of the course (`Catalog.batch_lists_empty_student`). -/

namespace Timetabling

namespace Catalog

/-- What a catalog built from `d` answers, read in terms of `d`'s records. -/
structure Describes (d : Dataset) (e : Catalog) : Prop where
  courses : SortedBy Course.id d.courses e.courses.toList
  rooms : SortedBy Room.id d.rooms e.rooms.toList
  slots : SortedBy (fun s ↦ toLex (s.day, s.period)) d.timeSlots e.slots.toList
  course? : ∀ {id c}, e.course? id = some c ↔ c ∈ d.courses ∧ c.id = id
  room? : ∀ {id r}, e.room? id = some r ↔ r ∈ d.rooms ∧ r.id = id
  slot? : ∀ {id s}, e.slot? id = some s ↔ s ∈ d.timeSlots ∧ s.id = id
  faculty? : ∀ {id f}, e.faculty? id = some f ↔ f ∈ d.faculty ∧ f.id = id
  /-- A slot's position in the week is its index in the slot list. -/
  slotOrder : ∀ {i : Nat} {s}, e.slots.toList[i]? = some s → e.slotOrder s.id = i
  slotOrder_unknown : ∀ {id}, (∀ s ∈ d.timeSlots, s.id ≠ id) → e.slotOrder id = -1
  /-- A course's students: its own non-empty ids and every id of its batches, in increasing
  order. -/
  students : ∀ c ∈ d.courses, (e.students c.id).Pairwise (· < ·) ∧
    ∀ x, x ∈ e.students c.id ↔ (x ≠ "" ∧ x ∈ c.studentIds) ∨
      ∃ b ∈ c.batchIds, ∃ batch, d.batch? b = some batch ∧ x ∈ batch.studentIds
  enrollment : ∀ id, e.enrollment id = (e.students id).toFinset.card
  sharedStudents : ∀ a b,
    e.sharedStudents a b = ((e.students a).toFinset ∩ (e.students b).toFinset).card
  /-- A slot closes its day when no slot of its day has a later period. -/
  isLastPeriod : ∀ t, e.isLastPeriod t = true ↔
    (∃ s ∈ d.timeSlots, s.day = t.day ∧ s.period = t.period) ∧
      ∀ s ∈ d.timeSlots, s.day = t.day → s.period ≤ t.period
  withCourse : ∀ c, SameOutcome (build { d with courses := d.courses ++ [c] }) (e.withCourse c)
  withoutCourse : ∀ x,
    SameOutcome (build { d with courses := d.courses.filter (·.id != x) }) (e.withoutCourse x)

/-- Every catalog `build` returns describes its dataset. -/
theorem describes_of_build {d : Dataset} {e : Catalog} (hb : build d = .ok e) : Describes d e :=
  ⟨courses_sortedBy hb, rooms_sortedBy hb, slots_sortedBy hb, course?_eq_some_iff hb,
    room?_eq_some_iff hb, slot?_eq_some_iff hb, faculty?_eq_some_iff hb,
    (arranged_of_build hb).slotOrder_of_getElem?, slotOrder_of_not_mem hb,
    fun _ hc ↦ students_spec hb hc, enrollment_eq_card hb, sharedStudents_eq_card hb,
    isLastPeriod_iff hb, withCourse_sameOutcome hb, withoutCourse_sameOutcome hb⟩

/-- Building a catalog succeeds exactly on valid datasets, and the catalog describes the dataset.
When no batch lists the empty id, a course's students are exactly the non-empty ids of its own
list and of its batches' lists. -/
theorem build_checks_and_indexes (d : Dataset) (hnamed : ∀ b ∈ d.batches, "" ∉ b.studentIds) :
    ((∃ e, build d = .ok e) ↔ d.Valid) ∧
      ∀ e, build d = .ok e → Describes d e ∧ ∀ c ∈ d.courses, ∀ x, x ∈ e.students c.id ↔
        x ≠ "" ∧ (x ∈ c.studentIds ∨ ∃ b ∈ c.batchIds, ∃ batch, d.batch? b = some batch ∧
          x ∈ batch.studentIds) := by
  refine ⟨build_isOk_iff, fun e hb ↦ ⟨describes_of_build hb, fun c hc x ↦ ?_⟩⟩
  rw [((describes_of_build hb).students c hc).2 x]
  constructor
  · rintro (⟨hx, hmem⟩ | ⟨b, hb, batch, hbatch, hmem⟩)
    · exact ⟨hx, .inl hmem⟩
    · -- the batch is one of the records, and none lists the empty id
      have hrec : batch ∈ d.batches :=
        List.mem_reverse.mp (List.mem_of_find?_eq_some hbatch)
      exact ⟨fun hempty ↦ hnamed batch hrec (hempty ▸ hmem), .inr ⟨b, hb, batch, hbatch, hmem⟩⟩
  · rintro ⟨hx, hmem | hmem⟩
    · exact .inl ⟨hx, hmem⟩
    · exact .inr hmem

/-- A small dataset: one course of one member of staff, taken by one batch of two students. -/
def oneBatch : Dataset :=
  { courses := [{ id := "c", facultyId := "f", batchIds := ["b"], sessions := 1 }]
    faculty := [{ id := "f" }]
    batches := [{ id := "b", studentIds := ["s", "t"] }] }

theorem build_checks_and_indexes_oneBatch : (∃ e, build oneBatch = .ok e) ↔ oneBatch.Valid :=
  (build_checks_and_indexes oneBatch (by decide)).1

/-- A batch that lists the empty id: the course taking it has the empty id among its students. -/
def emptyIdBatch : Dataset :=
  { courses := [{ id := "c", facultyId := "f", batchIds := ["b"], sessions := 1 }]
    faculty := [{ id := "f" }]
    batches := [{ id := "b", studentIds := ["", "s"] }] }

theorem batch_lists_empty_student : ∃ e, build emptyIdBatch = .ok e ∧ "" ∈ e.students "c" := by
  obtain ⟨e, hb⟩ := build_isOk_of_valid (d := emptyIdBatch) (by decide)
  have hc : emptyIdBatch.courses[0] ∈ emptyIdBatch.courses := by simp [emptyIdBatch]
  refine ⟨e, hb, ((students_spec hb hc).2 "").mpr (.inr ⟨"b", by simp [emptyIdBatch], _, rfl, ?_⟩)⟩
  simp

end Catalog

end Timetabling
