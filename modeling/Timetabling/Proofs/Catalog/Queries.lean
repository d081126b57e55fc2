import Mathlib.Data.Finset.Card
import Mathlib.Data.Prod.Lex
import Timetabling.Proofs.Catalog.Sorted
import Timetabling.Proofs.Catalog.Valid

/-! # What a built catalog answers

Each query of a catalog `build` returns is read back in terms of the dataset it was built from:
the lists are its records sorted stably, a lookup finds the one record of an id, a course's
students are its own non-empty ids and every id its batches list, the counts of students are
sizes of these sets, and the last period of a day is the largest period of its slots. -/

namespace Timetabling

namespace Catalog

/-! ## Sets filled from lists -/

theorem mem_foldl_insert (xs : List String) (s : Std.HashSet String) (x : String) :
    x ∈ xs.foldl (fun s x => s.insert x) s ↔ x ∈ s ∨ x ∈ xs := by
  induction xs generalizing s with
  | nil => simp
  | cons y ys ih =>
    rw [List.foldl_cons, ih, Std.HashSet.mem_insert, List.mem_cons, beq_iff_eq]
    tauto

/-- Counting the names of a list without repeats that another list holds counts the names the
two share. -/
theorem countP_mem_eq_card_inter {xs ys : List String} (hxs : xs.Nodup) :
    xs.countP (fun x ↦ decide (x ∈ ys)) = (xs.toFinset ∩ ys.toFinset).card := by
  rw [List.countP_eq_length_filter, ← List.toFinset_card_of_nodup (hxs.filter _),
    List.toFinset_filter]
  congr 1
  ext x
  simp

/-! ## The last period of each day -/

/-- The periods of the slots of a day. -/
def periodsOn (slots : List TimeSlot) (day : Int) : List Int :=
  (slots.filter (·.day = day)).map (·.period)

theorem max?_concat (xs : List Int) (x : Int) :
    (xs ++ [x]).max? = some (match xs.max? with
      | some m => max m x
      | none => x) := by
  cases xs with
  | nil => rfl
  | cons y ys =>
    simp only [List.cons_append, List.max?_cons', List.foldl_append, List.foldl_cons, List.foldl_nil]

theorem periodsOn_concat (slots : List TimeSlot) (s : TimeSlot) (day : Int) :
    periodsOn (slots ++ [s]) day = periodsOn slots day ++ if s.day = day then [s.period] else [] := by
  by_cases hday : s.day = day <;> simp [periodsOn, hday]

theorem getElem?_recordPeriod (last : Std.HashMap Int Int) (s : TimeSlot) (day : Int) :
    (recordPeriod last s)[day]? = if s.day = day then some (match last[s.day]? with
      | some p => max p s.period
      | none => s.period) else last[day]? := by
  unfold recordPeriod
  cases hp : last[s.day]? with
  | none => simp [Std.HashMap.getElem?_insert]
  | some p =>
    by_cases hlt : s.period > p
    · simp only [hlt, if_true, Std.HashMap.getElem?_insert, beq_iff_eq]
      split_ifs <;> simp [max_eq_right (le_of_lt hlt)]
    · simp only [hlt, if_false]
      split_ifs with hday
      · rw [← hday, hp, max_eq_left (not_lt.mp hlt)]
      · rfl

/-- Indexing slots keeps, for each day, the largest period of the slots seen so far. -/
theorem foldlM_indexSlotStep_last :
    ∀ (l : List (TimeSlot × Nat)) (seen : List TimeSlot)
      (acc res : Std.HashMap String Nat × Std.HashMap Int Int),
      l.foldlM indexSlotStep acc = .ok res → (∀ day, acc.2[day]? = (periodsOn seen day).max?) →
      ∀ day, res.2[day]? = (periodsOn (seen ++ l.map (·.1)) day).max?
  | [], seen, acc, res, h, hacc => by
    cases h
    simpa using hacc
  | (s, i) :: l, seen, acc, res, h, hacc => by
    rw [List.foldlM_cons] at h
    obtain ⟨acc', hstep, hrest⟩ := exists_of_bind_eq_ok h
    obtain ⟨-, -, rfl⟩ := indexSlotStep_eq_ok_iff.mp hstep
    have hnext := foldlM_indexSlotStep_last l (seen ++ [s]) _ res hrest fun day ↦ by
      rw [getElem?_recordPeriod, periodsOn_concat]
      by_cases hday : s.day = day
      · subst hday
        rw [if_pos rfl, if_pos rfl, max?_concat, hacc s.day]
      · rw [if_neg hday, if_neg hday, List.append_nil, hacc day]
    simpa using hnext

/-! ## Lists of students -/

theorem mem_getD_studentIds {o : Option Batch} {x : String} :
    x ∈ (o.map (·.studentIds)).getD [] ↔ ∃ batch, o = some batch ∧ x ∈ batch.studentIds := by
  cases o <;> simp

/-- Sorted names without repeats are strictly increasing. -/
theorem sortStrings_pairwise_lt {xs : List String} (h : (sortStrings xs).Nodup) :
    (sortStrings xs).Pairwise (· < ·) :=
  ((@stableSort_sortedBy String String _ (fun x ↦ x) _ (fun _ _ ↦ decide_eq_true_iff) xs).sorted.and
    h).imp fun h ↦ lt_of_le_of_ne h.1 h.2

section Built

variable {d : Dataset} {e : Catalog} (hb : build d = .ok e)
include hb

theorem studentSets_of_build :
    e.studentSets = e.studentsById.map fun _ ss => ss.foldl (fun s x => s.insert x) {} := by
  unfold build at hb
  obtain ⟨_, -, hb⟩ := exists_of_bind_eq_ok hb
  obtain ⟨_, -, hb⟩ := exists_of_bind_eq_ok hb
  obtain ⟨_, -, hb⟩ := exists_of_bind_eq_ok hb
  obtain ⟨_, -, hb⟩ := exists_of_bind_eq_ok hb
  cases hb
  rfl

/-! ## Sorted lists -/

theorem courses_sortedBy : SortedBy Course.id d.courses e.courses.toList := by
  obtain ⟨-, -, -, -, -, hcs, -⟩ := build_eq_ok hb
  rw [hcs, List.toList_toArray]
  exact stableSort_sortedBy (fun _ _ ↦ decide_eq_true_iff) _

theorem rooms_sortedBy : SortedBy Room.id d.rooms e.rooms.toList := by
  obtain ⟨-, -, -, -, -, -, hrs, -⟩ := build_eq_ok hb
  rw [hrs, List.toList_toArray]
  exact stableSort_sortedBy (fun _ _ ↦ decide_eq_true_iff) _

/-- Slots are listed by day, then by period, slots at one day and period in input order. -/
theorem slots_sortedBy : SortedBy (fun s ↦ toLex (s.day, s.period)) d.timeSlots e.slots.toList := by
  rw [slots_of_build hb, List.toList_toArray]
  refine stableSort_sortedBy (fun a b ↦ ?_) _
  rw [Prod.Lex.toLex_lt_toLex]
  by_cases hday : a.day = b.day <;> simp [hday]

/-- Course ids are distinct, so courses are listed in strictly increasing order of id. -/
theorem courses_pairwise_lt : e.courses.toList.Pairwise fun a b ↦ a.id < b.id :=
  ((courses_sortedBy hb).sorted.and (List.pairwise_map.mp (indexed_of_build hb).courseIds_nodup)).imp
    fun h ↦ lt_of_le_of_ne h.1 h.2

/-! ## Lookups -/

theorem course?_eq_some_iff {id : String} {c : Course} :
    e.course? id = some c ↔ c ∈ d.courses ∧ c.id = id := by
  rw [(indexed_of_build hb).course?_eq_some_iff, (courses_sortedBy hb).perm.mem_iff]

theorem room?_eq_some_iff {id : String} {r : Room} :
    e.room? id = some r ↔ r ∈ d.rooms ∧ r.id = id := by
  rw [(arranged_of_build hb).room?_eq_some, (rooms_sortedBy hb).perm.mem_iff]

theorem slot?_eq_some_iff {id : String} {s : TimeSlot} :
    e.slot? id = some s ↔ s ∈ d.timeSlots ∧ s.id = id := by
  rw [(arranged_of_build hb).slot?_eq_some, (slots_sortedBy hb).perm.mem_iff]

theorem faculty?_eq_some_iff {id : String} {f : Faculty} :
    e.faculty? id = some f ↔ f ∈ d.faculty ∧ f.id = id := by
  obtain ⟨-, hfac, -⟩ := build_eq_ok hb
  rw [indexFaculty_eq_foldlM, foldlM_indexFacultyStep_eq_ok_iff] at hfac
  obtain ⟨⟨-, hnd⟩, hm⟩ := hfac
  unfold faculty?
  rw [hm]
  -- the staff ids are distinct, so the map holds each record under its own id
  by_cases hid : id ∈ d.faculty.map (·.id)
  · obtain ⟨g, hg, rfl⟩ := List.mem_map.mp hid
    rw [getElem?_foldl_insert_of_nodup Faculty.id (fun f ↦ f) _ _ hnd g hg, Option.some.injEq]
    constructor
    · rintro rfl
      exact ⟨hg, rfl⟩
    · rintro ⟨hf, hfid⟩
      exact List.inj_on_of_nodup_map hnd hg hf hfid.symm
  · rw [getElem?_foldl_insert_of_not_mem Faculty.id (fun f ↦ f) _ _ hid]
    simp only [Std.HashMap.getElem?_empty, reduceCtorEq, false_iff, not_and]
    exact fun hf hfid ↦ hid (List.mem_map.mpr ⟨f, hf, hfid⟩)

/-- An id that no slot carries has position `-1`. -/
theorem slotOrder_of_not_mem {id : String} (h : ∀ s ∈ d.timeSlots, s.id ≠ id) :
    e.slotOrder id = -1 := by
  refine (arranged_of_build hb).slotOrder_of_slot?_eq_none (Option.eq_none_iff_forall_ne_some.mpr
    fun s hs ↦ ?_)
  obtain ⟨hmem, hsid⟩ := (slot?_eq_some_iff hb).mp hs
  exact h s hmem hsid

/-! ## Students -/

/-- The students of a course: its own non-empty ids and every id its batches list (the last
record of a batch id), sorted, each once. -/
theorem students_spec {c : Course} (hc : c ∈ d.courses) :
    (e.students c.id).Pairwise (· < ·) ∧
      ∀ x, x ∈ e.students c.id ↔ (x ≠ "" ∧ x ∈ c.studentIds) ∨
        ∃ b ∈ c.batchIds, ∃ batch, d.batch? b = some batch ∧ x ∈ batch.studentIds := by
  have hc' : c ∈ e.courses.toList := (courses_sortedBy hb).perm.mem_iff.mpr hc
  obtain ⟨-, ss, hss, hin⟩ := students_of_build hb hc'
  have hstudents : e.students c.id = ss := by simp [students, hin]
  obtain ⟨-, rfl⟩ := courseStudents_eq_ok hss
  have hnodup := (indexed_of_build hb).students_nodup c.id
  rw [hstudents] at hnodup ⊢
  refine ⟨sortStrings_pairwise_lt hnodup, fun x ↦ ?_⟩
  simp only [sortStrings, stableSort, List.mem_mergeSort, mem_dedupStrings, List.mem_append,
    List.mem_filter, bne_iff_ne, ne_eq, List.mem_flatMap, batchIndex_getElem?, mem_getD_studentIds]
  exact or_congr_left and_comm

/-- The number of students of a course is the size of its set of students. -/
theorem enrollment_eq_card (id : String) : e.enrollment id = (e.students id).toFinset.card := by
  rw [enrollment, List.toFinset_card_of_nodup ((indexed_of_build hb).students_nodup id)]

/-- Two courses share as many students as their sets of students have in common. -/
theorem sharedStudents_eq_card (a b : String) :
    e.sharedStudents a b = ((e.students a).toFinset ∩ (e.students b).toFinset).card := by
  rw [← countP_mem_eq_card_inter ((indexed_of_build hb).students_nodup a)]
  unfold sharedStudents
  rw [studentSets_of_build hb, Std.HashMap.getElem?_map]
  cases hs : e.studentsById[b]? with
  | none => simp [students, hs]
  | some ss =>
    simp only [Option.map_some, students, hs, Option.getD_some]
    refine List.countP_congr fun x _ ↦ ?_
    simp [mem_foldl_insert]

/-- The last period kept for a day is the largest period of its slots. -/
theorem lastPeriod_getElem? (day : Int) :
    e.lastPeriod[day]? = (periodsOn e.slots.toList day).max? := by
  have h := indexSlots_of_build hb
  rw [indexSlots_eq_foldlM] at h
  have hlast := foldlM_indexSlotStep_last _ [] _ _ h (fun day ↦ by simp [periodsOn]) day
  rwa [List.nil_append, List.zipIdx_map_fst] at hlast

/-- A slot closes its day exactly when some slot of its day has its period and none has a later
one. -/
theorem isLastPeriod_iff (t : TimeSlot) :
    e.isLastPeriod t = true ↔ (∃ s ∈ d.timeSlots, s.day = t.day ∧ s.period = t.period) ∧
      ∀ s ∈ d.timeSlots, s.day = t.day → s.period ≤ t.period := by
  unfold isLastPeriod
  rw [beq_iff_eq, lastPeriod_getElem? hb, List.max?_eq_some_iff]
  simp only [periodsOn, List.mem_map, List.mem_filter, decide_eq_true_eq,
    (slots_sortedBy hb).perm.mem_iff]
  refine and_congr (by simp only [and_assoc]) ⟨fun h s hs hday ↦ h _ ⟨s, ⟨hs, hday⟩, rfl⟩, ?_⟩
  rintro h b ⟨s, ⟨hs, hday⟩, rfl⟩
  exact h s hs hday

end Built

end Catalog

end Timetabling
