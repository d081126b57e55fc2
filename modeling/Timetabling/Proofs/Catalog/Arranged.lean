import Mathlib.Data.String.Basic
import Timetabling.Proofs.Catalog.Index
import Timetabling.Timetable.Conflict

/-! # Slots and rooms of a built catalog

`Catalog.build` enters every slot and every room under its id at its position in the catalog's
list, and refuses an id given twice. So a slot or room is found under an id exactly when it is
listed with that id, the position of a slot in the week is its index in the list, and the rooms
are listed in strictly increasing id order. `Catalog.Arranged` collects these facts, and
`Catalog.arranged_of_build` proves them of every catalog `build` returns; the candidate
placements of a course are read through them. -/

namespace Timetabling

namespace Catalog

/-! ## Indexing slots -/

/-- One step of indexing slots: the index and the last periods so far, and a slot at its
position. -/
def indexSlotStep (acc : Std.HashMap String Nat × Std.HashMap Int Int) (x : TimeSlot × Nat) :
    Except CatalogError (Std.HashMap String Nat × Std.HashMap Int Int) :=
  match acc, x with
  | (idx, last), (s, i) =>
    if s.id == "" then .error .slotIdMissing
    else if idx.contains s.id then .error (.duplicateSlot s.id)
    else
      let last := match last[s.day]? with
        | some p => if s.period > p then last.insert s.day s.period else last
        | none => last.insert s.day s.period
      pure (idx.insert s.id i, last)

theorem indexSlots_eq_foldlM (slots : List TimeSlot) :
    indexSlots slots = slots.zipIdx.foldlM indexSlotStep ({}, {}) := rfl

/-- The last periods of the days after one more slot. -/
def recordPeriod (last : Std.HashMap Int Int) (s : TimeSlot) : Std.HashMap Int Int :=
  match last[s.day]? with
  | some p => if s.period > p then last.insert s.day s.period else last
  | none => last.insert s.day s.period

/-- A slot is indexed exactly when its id is given and not indexed yet. -/
theorem indexSlotStep_eq_ok_iff {acc res : Std.HashMap String Nat × Std.HashMap Int Int}
    {s : TimeSlot} {i : Nat} :
    indexSlotStep acc (s, i) = .ok res ↔
      s.id ≠ "" ∧ ¬acc.1.contains s.id ∧ res = (acc.1.insert s.id i, recordPeriod acc.2 s) := by
  obtain ⟨idx, last⟩ := acc
  by_cases hid : s.id = ""
  · simp [indexSlotStep, hid]
  · by_cases hdup : idx.contains s.id
    · simp [indexSlotStep, hid, hdup]
    · simp only [indexSlotStep, hid, beq_iff_eq, if_false, hdup, Bool.false_eq_true, pure,
        Except.pure, Except.ok.injEq, ne_eq, not_false_eq_true, true_and]
      exact eq_comm

/-- A slot is indexed only under a fresh id, at its position. -/
theorem indexSlotStep_eq_ok {acc res : Std.HashMap String Nat × Std.HashMap Int Int}
    {x : TimeSlot × Nat} (h : indexSlotStep acc x = .ok res) :
    ¬ acc.1.contains x.1.id ∧ res.1 = acc.1.insert x.1.id x.2 := by
  obtain ⟨s, i⟩ := x
  obtain ⟨-, hdup, rfl⟩ := indexSlotStep_eq_ok_iff.mp h
  exact ⟨hdup, rfl⟩

variable {d : Dataset} {e : Catalog}

/-- The slot index of a built catalog is the one `indexSlots` makes of its slot list. -/
theorem indexSlots_of_build (hb : build d = .ok e) :
    indexSlots e.slots.toList = .ok (e.slotIndex, e.lastPeriod) := by
  unfold build at hb
  obtain ⟨_, -, hb⟩ := exists_of_bind_eq_ok hb
  obtain ⟨_, hs, hb⟩ := exists_of_bind_eq_ok hb
  obtain ⟨_, -, hb⟩ := exists_of_bind_eq_ok hb
  obtain ⟨_, -, hb⟩ := exists_of_bind_eq_ok hb
  cases hb
  simpa using hs

/-- The slots of a built catalog are the records' slots in order of day and period. -/
theorem slots_of_build (hb : build d = .ok e) :
    e.slots = (stableSort (fun a b => if a.day == b.day then a.period < b.period else a.day < b.day)
      d.timeSlots).toArray := by
  unfold build at hb
  obtain ⟨_, -, hb⟩ := exists_of_bind_eq_ok hb
  obtain ⟨_, -, hb⟩ := exists_of_bind_eq_ok hb
  obtain ⟨_, -, hb⟩ := exists_of_bind_eq_ok hb
  obtain ⟨_, -, hb⟩ := exists_of_bind_eq_ok hb
  cases hb
  rfl

/-! ## Placements a catalog allows -/

/-- What a placement needs of the catalog alone: a known slot, a known room that suits the
course, and the course's staff member available in the slot. -/
def Allows (e : Catalog) (c : Course) (p : Placement) : Prop :=
  (e.slot? p.slot).isSome ∧ (∃ r, e.room? p.room = some r ∧ e.roomSuits r c = true) ∧
    e.facultyAvailable c.facultyId p.slot = true

/-! ## Arranged catalogs -/

/-- The facts about its slot and room lists that every catalog `build` returns satisfies. -/
structure Arranged (e : Catalog) : Prop where
  /-- The slot found under an id is a listed slot of that id, and every listed slot is found. -/
  slot?_eq_some : ∀ {id s}, e.slot? id = some s ↔ s ∈ e.slots.toList ∧ s.id = id
  /-- A slot's position in the week is its index in the list. -/
  slotOrder_of_getElem? : ∀ {i : Nat} {s : TimeSlot}, e.slots.toList[i]? = some s → e.slotOrder s.id = i
  /-- An id that is not a slot's has position `-1`. -/
  slotOrder_of_slot?_eq_none : ∀ {id}, e.slot? id = none → e.slotOrder id = -1
  /-- The room found under an id is a listed room of that id, and every listed room is found. -/
  room?_eq_some : ∀ {id r}, e.room? id = some r ↔ r ∈ e.rooms.toList ∧ r.id = id
  /-- Rooms are listed in strictly increasing id order. -/
  rooms_sorted : e.rooms.toList.Pairwise fun a b => a.id < b.id

/-- A list kept in non-decreasing id order, with distinct ids, is in strictly increasing order. -/
theorem pairwise_id_lt {α : Type} {id : α → String} {xs : List α}
    (hsorted : xs.Pairwise fun a b => ¬ id b < id a) (hnodup : (xs.map id).Nodup) :
    xs.Pairwise fun a b => id a < id b := by
  have hne : xs.Pairwise fun a b => id a ≠ id b := List.pairwise_map.mp hnodup
  exact (hsorted.and hne).imp fun h ↦ lt_of_le_of_ne (not_lt.mp h.1) h.2

/-- The records of a dataset in id order are in non-decreasing id order. -/
theorem byId_pairwise {α : Type} (id : α → String) (xs : List α) :
    (byId id xs).Pairwise fun a b => ¬ id b < id a := by
  have h : (List.mergeSort xs fun a b ↦ !decide (id b < id a)).Pairwise
      fun a b ↦ (!decide (id b < id a)) = true := List.pairwise_mergeSort
    (fun a b c hab hbc ↦ by
      simp only [Bool.not_eq_eq_eq_not, Bool.not_true, decide_eq_false_iff_not, not_lt] at *
      exact le_trans hab hbc)
    (fun a b ↦ by
      rcases le_total (id a) (id b) with h | h <;> simp [not_lt.mpr h])
    xs
  simpa [byId, stableSort] using h

/-- A lookup through an index of positions finds exactly the listed records of the id. -/
theorem bind_getElem?_eq_some_iff {α : Type} {key : α → String} {xs : Array α}
    {idx : Std.HashMap String Nat} (hpos : Positions key xs.toList idx)
    (hat : ∀ i x, xs.toList[i]? = some x → idx[key x]? = some i) {name : String} {x : α} :
    (idx[name]? >>= fun i => xs[i]?) = some x ↔ x ∈ xs.toList ∧ key x = name := by
  constructor
  · intro h
    obtain ⟨i, hi, hx⟩ := Option.bind_eq_some_iff.mp h
    obtain ⟨x', hx', rfl⟩ := hpos name i hi
    rw [Array.getElem?_toList, hx] at hx'
    cases hx'
    exact ⟨List.mem_of_getElem? (by rwa [Array.getElem?_toList]), rfl⟩
  · rintro ⟨hx, rfl⟩
    obtain ⟨i, hi⟩ := List.getElem?_of_mem hx
    simp only [hat i x hi]
    simpa using hi

/-- Every catalog `build` returns is arranged. -/
theorem arranged_of_build (hb : build d = .ok e) : e.Arranged := by
  obtain ⟨-, -, hrooms, -, -, -, hrs, -⟩ := build_eq_ok hb
  have hslots := indexSlots_of_build hb
  rw [indexSlots_eq_foldlM] at hslots
  rw [indexRooms_eq_foldlM] at hrooms
  obtain ⟨spos, sat, -, -⟩ := positions_of_foldlM TimeSlot.id (fun _ ↦ True) Prod.fst
    (fun _ _ _ hs ↦ ⟨(indexSlotStep_eq_ok hs).1, trivial, (indexSlotStep_eq_ok hs).2⟩) rfl hslots
  obtain ⟨rpos, rat, rnodup, -⟩ := positions_of_foldlM Room.id (fun _ ↦ True) id
    (fun _ _ _ hs ↦ ⟨(indexRoomStep_eq_ok hs).1, trivial, (indexRoomStep_eq_ok hs).2⟩) rfl hrooms
  have hrl : e.rooms.toList = byId Room.id d.rooms := by rw [hrs, List.toList_toArray]
  have hsorted := pairwise_id_lt (byId_pairwise Room.id d.rooms) rnodup
  rw [← hrl] at rpos rat hsorted
  simp only [id] at rpos rat
  refine ⟨bind_getElem?_eq_some_iff spos sat, fun {i s} hi ↦ ?_, fun {name} hname ↦ ?_,
    bind_getElem?_eq_some_iff rpos rat, hsorted⟩
  · simp [slotOrder, sat i s hi]
  · -- an entry of the index would point at a listed slot, which the lookup would find
    unfold slot? at hname
    unfold slotOrder
    cases hi : e.slotIndex[name]? with
    | none => rfl
    | some i =>
      obtain ⟨s, hs, -⟩ := spos name i hi
      simp only [hi] at hname
      simp [← Array.getElem?_toList, hs] at hname

namespace Arranged

variable (he : e.Arranged)
include he

/-- A listed slot's position in the week is its index in the list. -/
theorem slotOrder_of_mem {s : TimeSlot} (hs : s ∈ e.slots.toList) :
    ∃ i : Nat, e.slots.toList[i]? = some s ∧ e.slotOrder s.id = i := by
  obtain ⟨i, hi⟩ := List.getElem?_of_mem hs
  exact ⟨i, hi, he.slotOrder_of_getElem? hi⟩

/-- A known slot has a position in the week. -/
theorem slotOrder_nonneg {name : String} (h : (e.slot? name).isSome) : 0 ≤ e.slotOrder name := by
  obtain ⟨s, hs⟩ := Option.isSome_iff_exists.mp h
  obtain ⟨hmem, rfl⟩ := he.slot?_eq_some.mp hs
  obtain ⟨i, -, hi⟩ := he.slotOrder_of_mem hmem
  omega

/-- Slots are listed in week order. -/
theorem slots_pairwise : e.slots.toList.Pairwise fun a b => e.slotOrder a.id < e.slotOrder b.id := by
  rw [List.pairwise_iff_getElem]
  intro i j hi hj hij
  rw [he.slotOrder_of_getElem? (List.getElem?_eq_getElem hi),
    he.slotOrder_of_getElem? (List.getElem?_eq_getElem hj)]
  exact_mod_cast hij

/-- No two slots share an id. -/
theorem slotIds_nodup : (e.slots.toList.map (·.id)).Nodup :=
  List.pairwise_map.mpr (he.slots_pairwise.imp fun h heq ↦ by rw [heq] at h; exact lt_irrefl _ h)

/-- Two known slots at one position in the week are one slot. -/
theorem slotOrder_inj {a b : String} (ha : (e.slot? a).isSome) (hb : (e.slot? b).isSome)
    (h : e.slotOrder a = e.slotOrder b) : a = b := by
  obtain ⟨sa, hsa⟩ := Option.isSome_iff_exists.mp ha
  obtain ⟨sb, hsb⟩ := Option.isSome_iff_exists.mp hb
  obtain ⟨hma, rfl⟩ := he.slot?_eq_some.mp hsa
  obtain ⟨hmb, rfl⟩ := he.slot?_eq_some.mp hsb
  obtain ⟨i, hi, hia⟩ := he.slotOrder_of_mem hma
  obtain ⟨j, hj, hjb⟩ := he.slotOrder_of_mem hmb
  have hij : i = j := by omega
  subst hij
  rw [hi] at hj
  cases hj
  rfl

end Arranged

end Catalog

end Timetabling
