import Timetabling.Timetable.Basic

/-! # Counting placed sessions

A timetable keeps running counts beside its placements: sessions per member of staff and per
slot. To say that a count is right we count the placements themselves. `placedCount t q` is the
number of placed sessions whose key and placement pass the test `q`; placing a new session adds
one when it passes, and removing a placed one takes one away.

The counts are taken over `Std.HashMap.toList`, whose order is unspecified; only the number of
entries that pass matters, and that is the same for every map with the same entries. -/

namespace Timetabling

namespace Timetable

/-- The number of placed sessions whose key and placement pass a test. -/
def placedCount (t : Timetable) (q : SessionKey → Placement → Bool) : Nat :=
  t.placements.toList.countP fun kp ↦ q kp.1 kp.2

section MapCount

variable {α β : Type} [BEq α] [Hashable α] [LawfulBEq α]

/-- Inserting a key the map lacks adds its entry to the count. -/
theorem countP_toList_insert_of_not_mem (m : Std.HashMap α β) {k : α} (v : β) (hk : k ∉ m)
    (q : α × β → Bool) :
    (m.insert k v).toList.countP q = m.toList.countP q + if q (k, v) then 1 else 0 := by
  rw [(Std.HashMap.toList_insert_perm).countP_eq q]
  have hkeep : m.toList.filter (fun x ↦ ¬ (k == x.1)) = m.toList := by
    rw [List.filter_eq_self]
    intro x hx
    have hx' : m[x.1]? = some x.2 := Std.HashMap.mem_toList_iff_getElem?_eq_some.mp hx
    have hne : k ≠ x.1 := fun h ↦ hk (h ▸ Std.HashMap.mem_iff_isSome_getElem?.mpr (by simp [hx']))
    simp [hne]
  rw [hkeep, List.countP_cons]

/-- Counting the entries of a map is counting those of the map without one key, plus that key's
entry. -/
theorem countP_toList_of_getElem? (m : Std.HashMap α β) {k : α} {v : β} (hk : m[k]? = some v)
    (q : α × β → Bool) :
    m.toList.countP q = (m.erase k).toList.countP q + if q (k, v) then 1 else 0 := by
  have heq : Std.HashMap.Equiv m ((m.erase k).insert k v) := by
    refine Std.HashMap.Equiv.of_forall_getElem?_eq fun a ↦ ?_
    rw [Std.HashMap.getElem?_insert, Std.HashMap.getElem?_erase]
    by_cases h : k = a
    · subst h
      simp [hk]
    · simp [h]
  rw [heq.toList_perm.countP_eq q]
  exact countP_toList_insert_of_not_mem _ v (by simp) q

end MapCount

/-- Recording a session that is not placed yet adds it to every count it passes. -/
theorem placedCount_insert {t : Timetable} {k : SessionKey} (p : Placement) (hk : k ∉ t.placements)
    (q : SessionKey → Placement → Bool) :
    ({ t with placements := t.placements.insert k p } : Timetable).placedCount q =
      t.placedCount q + if q k p then 1 else 0 :=
  countP_toList_insert_of_not_mem t.placements p hk _

/-- Removing a placed session takes it out of every count it passes. -/
theorem placedCount_erase {t : Timetable} {k : SessionKey} {p : Placement}
    (hk : t.placements[k]? = some p) (q : SessionKey → Placement → Bool) :
    t.placedCount q = ({ t with placements := t.placements.erase k } : Timetable).placedCount q +
      if q k p then 1 else 0 :=
  countP_toList_of_getElem? t.placements hk _

/-- A timetable without placements counts nothing. -/
@[simp] theorem placedCount_empty (e : Catalog) (q : SessionKey → Placement → Bool) :
    (empty e).placedCount q = 0 := by
  simp [placedCount, empty]

end Timetable

end Timetabling
