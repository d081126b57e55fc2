import Mathlib.Data.List.Nodup
import Timetabling.Search.Merge
import Timetabling.Proofs.Search.Exact

/-! # Exact solving of a cluster

`Timetable.solveExact` searches over the known courses of a cluster that have sessions, after
refusing clusters that some count shows infeasible: a course with fewer candidate slots than
sessions, a member of staff asked for more sessions than their candidate slots or their weekly
cap. Started on the empty timetable of a built catalog with no deadline and no node budget, it
succeeds exactly when the cluster's sessions can all be assigned, one after another in some order,
to the empty timetable, and it then leaves a timetable that answers like such an assignment; when
it fails, it fails as infeasible and leaves the timetable it started from. A cluster that is not
oversized is therefore solved exactly precisely when it is feasible on its own.

The counts the refusal makes are each bounded by a set of placements admitted together: its
placements for one course, or for one member of staff, lie in distinct candidate slots and
within the cap. -/

namespace Timetabling

/-- Every given session can be placed: assigning each at some placement, one after another in
some order, is accepted throughout. -/
def Timetable.Completable (t : Timetable) (keys : List SessionKey) : Prop :=
  ∃ L : List (SessionKey × Placement), (L.map (·.1)).Perm keys ∧ ∃ u, t.assignAll L = .ok u

namespace Catalog

/-- The courses an exact search over some ids places: the known ones with sessions, in order. -/
def searchCourses (e : Catalog) (ids : List String) : List Course :=
  ids.filterMap fun id => (e.course? id).filter fun c => c.sessions != 0

variable {e : Catalog} {ids : List String}

theorem mem_searchCourses (he : e.Indexed) {c : Course} :
    c ∈ e.searchCourses ids ↔ c.id ∈ ids ∧ e.course? c.id = some c ∧ 0 < c.sessions := by
  simp only [searchCourses, List.mem_filterMap, Option.filter_eq_some_iff, bne_iff_ne, ne_eq]
  constructor
  · rintro ⟨id, hid, hc, h0⟩
    obtain rfl := he.course?_id hc
    have := he.sessions_nonneg (mem_of_course? hc)
    exact ⟨hid, hc, by omega⟩
  · rintro ⟨hid, hc, hpos⟩
    exact ⟨c.id, hid, hc, by omega⟩

theorem searchCourses_cons (e : Catalog) (id : String) (ids : List String) :
    e.searchCourses (id :: ids) =
      ((e.course? id).filter fun c => c.sessions != 0).toList ++ e.searchCourses ids := by
  simp only [searchCourses, List.filterMap_cons]
  cases (e.course? id).filter fun c => c.sessions != 0 <;> simp

/-- The search courses of distinct ids have distinct ids. -/
theorem searchCourses_nodup (he : e.Indexed) (hids : ids.Nodup) :
    ((e.searchCourses ids).map (·.id)).Nodup := by
  refine List.Nodup.sublist ?_ hids
  induction ids with
  | nil => exact List.Sublist.slnil
  | cons id ids ih =>
    simp only [searchCourses, List.filterMap_cons]
    split
    · exact (ih (List.nodup_cons.mp hids).2).cons _
    · rename_i c hc
      obtain ⟨hc, -⟩ := Option.filter_eq_some_iff.mp hc
      rw [List.map_cons, he.course?_id hc]
      exact (ih (List.nodup_cons.mp hids).2).cons_cons _

end Catalog

/-- The sessions of a course id, in number order; none for an unknown id. -/
def Catalog.sessionsOf (e : Catalog) (id : String) : List SessionKey :=
  match e.course? id with
  | some course => (List.range course.sessions.toNat).map fun (i : Nat) => ⟨id, i⟩
  | none => []

theorem Catalog.mem_sessionsOf {e : Catalog} {id : String} {k : SessionKey} :
    k ∈ e.sessionsOf id ↔
      ∃ c, e.course? id = some c ∧ k.course = id ∧ 0 ≤ k.index ∧ k.index < c.sessions := by
  unfold sessionsOf
  split
  · rename_i c hc
    simp only [List.mem_map, List.mem_range, hc, Option.some.injEq, exists_eq_left']
    constructor
    · rintro ⟨i, hi, rfl⟩
      exact ⟨rfl, by simp, by simp; omega⟩
    · rintro ⟨hk, h0, hlt⟩
      exact ⟨k.index.toNat, by omega, by cases k; simp_all⟩
  · rename_i hc
    simp [hc]

theorem Catalog.sessionsOf_nodup (e : Catalog) (id : String) : (e.sessionsOf id).Nodup := by
  unfold sessionsOf
  split
  · exact List.nodup_range.map fun a b h ↦ by
      simp only [SessionKey.mk.injEq, true_and] at h
      omega
  · exact List.nodup_nil

namespace Cluster

variable {e : Catalog} {cl : Cluster}

theorem keys_eq (cl : Cluster) (e : Catalog) : cl.keys e = cl.courseIds.flatMap e.sessionsOf := rfl

/-- The sessions of a cluster are those of its search courses. -/
theorem mem_keys (he : e.Indexed) {k : SessionKey} :
    k ∈ cl.keys e ↔ ∃ c ∈ e.searchCourses cl.courseIds,
      k.course = c.id ∧ 0 ≤ k.index ∧ k.index < c.sessions := by
  simp only [keys_eq, List.mem_flatMap, Catalog.mem_sessionsOf, Catalog.mem_searchCourses he]
  constructor
  · rintro ⟨id, hid, c, hc, hk, h0, hlt⟩
    obtain rfl := he.course?_id hc
    exact ⟨c, ⟨hid, hc, by omega⟩, hk, h0, hlt⟩
  · rintro ⟨c, ⟨hid, hc, -⟩, hk, h0, hlt⟩
    exact ⟨c.id, hid, c, hc, hk, h0, hlt⟩

/-- A cluster of distinct course ids lists each session once. -/
theorem keys_nodup (hids : cl.courseIds.Nodup) : (cl.keys e).Nodup := by
  rw [keys_eq]
  refine List.nodup_flatMap.mpr ⟨fun id _ ↦ e.sessionsOf_nodup id, ?_⟩
  -- the sessions of one id carry that id
  refine hids.imp fun {a b} hab ↦ List.disjoint_left.mpr fun {k} hka hkb ↦ hab ?_
  obtain ⟨-, -, hka, -⟩ := Catalog.mem_sessionsOf.mp hka
  obtain ⟨-, -, hkb, -⟩ := Catalog.mem_sessionsOf.mp hkb
  rw [← hka, ← hkb]

theorem length_sessionsOf (e : Catalog) (id : String) :
    (e.sessionsOf id).length = ((e.course? id).map (·.sessions.toNat)).getD 0 := by
  unfold Catalog.sessionsOf
  split <;> simp_all

/-- A cluster has as many sessions as its search courses together. -/
theorem length_keys (cl : Cluster) (e : Catalog) :
    (cl.keys e).length = (e.searchCourses cl.courseIds).foldl (fun n c => n + c.sessions.toNat) 0 := by
  rw [keys_eq]
  -- over any starting count, by induction on the ids
  suffices h : ∀ (ids : List String) (a : Nat),
      a + (ids.flatMap e.sessionsOf).length =
        (e.searchCourses ids).foldl (fun n c => n + c.sessions.toNat) a from
    (h cl.courseIds 0).symm ▸ (Nat.zero_add _).symm
  intro ids
  induction ids with
  | nil => simp [Catalog.searchCourses]
  | cons id ids ih =>
    intro a
    rw [List.flatMap_cons, List.length_append, length_sessionsOf, Catalog.searchCourses_cons]
    cases hc : e.course? id with
    | none => simpa using ih a
    | some c =>
      by_cases h0 : c.sessions = 0
      · simpa [h0, Option.filter_some] using ih a
      · simp only [Option.map_some, Option.getD_some, Option.filter_some, bne_iff_ne, ne_eq, h0,
          not_false_eq_true, if_true, Option.toList_some, List.singleton_append, List.foldl_cons]
        rw [← ih, Nat.add_assoc]

/-- A cluster's sessions taught by a member of staff are as many as the sessions of its search
courses of that member. -/
theorem countP_keys_faculty (he : e.Indexed) (cl : Cluster) (f : String) :
    (((cl.keys e).countP fun k => (Timetable.empty e).facultyOf k.course == f : Nat) : Int) =
      ((e.searchCourses cl.courseIds).filter (·.facultyId == f)).foldl
        (fun (n : Int) c => n + c.sessions) 0 := by
  rw [keys_eq]
  suffices h : ∀ (ids : List String) (a : Int),
      a + (((ids.flatMap e.sessionsOf).countP fun k => (Timetable.empty e).facultyOf k.course == f : Nat) : Int) =
        ((e.searchCourses ids).filter (·.facultyId == f)).foldl (fun (n : Int) c => n + c.sessions) a from
    by simpa using h cl.courseIds 0
  intro ids
  induction ids with
  | nil => simp [Catalog.searchCourses]
  | cons id ids ih =>
    intro a
    rw [List.flatMap_cons, List.countP_append, Catalog.searchCourses_cons]
    cases hc : e.course? id with
    | none =>
      have hnil : e.sessionsOf id = [] := by simp [Catalog.sessionsOf, hc]
      simpa [hnil] using ih a
    | some c =>
      -- every session of the id is taught by the course's staff member
      have hblock : (e.sessionsOf id).countP (fun k => (Timetable.empty e).facultyOf k.course == f) =
          if c.facultyId = f then c.sessions.toNat else 0 := by
        have hfac : ∀ k ∈ e.sessionsOf id, (Timetable.empty e).facultyOf k.course = c.facultyId :=
          fun k hk ↦ by
            obtain ⟨-, -, hk, -⟩ := Catalog.mem_sessionsOf.mp hk
            simp [Timetable.facultyOf, hk, hc]
        split
        · rename_i hf
          rw [List.countP_eq_length.mpr fun k hk ↦ by simp [hfac k hk, hf], length_sessionsOf, hc]
          rfl
        · rename_i hf
          exact List.countP_eq_zero.mpr fun k hk ↦ by simp [hfac k hk, hf]
      have hnonneg := he.sessions_nonneg (Catalog.mem_of_course? hc)
      rw [hblock]
      by_cases h0 : c.sessions = 0
      · simp only [Option.filter_some, bne_iff_ne, ne_eq, h0, not_true_eq_false, if_false,
          Option.toList_none, List.nil_append]
        rw [← ih]
        split <;> simp
      · simp only [Option.filter_some, bne_iff_ne, ne_eq, h0, not_false_eq_true, if_true,
          Option.toList_some, List.singleton_append, List.filter_cons]
        by_cases hf : c.facultyId = f
        · simp only [hf, beq_self_eq_true, if_true, List.foldl_cons]
          rw [← ih]
          push_cast
          rw [Int.toNat_of_nonneg hnonneg]
          omega
        · simp only [hf, if_false, beq_iff_eq]
          rw [← ih]
          simp

/-- A cluster of distinct ids has as many sessions of each search course as the course has. -/
theorem countP_keys_course (he : e.Indexed) (hids : cl.courseIds.Nodup) {c : Course}
    (hc : c ∈ e.searchCourses cl.courseIds) :
    (cl.keys e).countP (·.course == c.id) = c.sessions.toNat := by
  obtain ⟨-, hcc, -⟩ := (Catalog.mem_searchCourses he).mp hc
  -- the cluster's sessions of the course are the course's sessions
  have hperm : ((cl.keys e).filter (·.course == c.id)).Perm (e.sessionsOf c.id) := by
    refine (List.perm_ext_iff_of_nodup ((keys_nodup hids).filter _) (e.sessionsOf_nodup c.id)).mpr
      fun k ↦ ?_
    rw [List.mem_filter, mem_keys he, Catalog.mem_sessionsOf, beq_iff_eq]
    constructor
    · rintro ⟨⟨c', hc', hk, h0, hlt⟩, hkc⟩
      obtain ⟨-, hc'c, -⟩ := (Catalog.mem_searchCourses he).mp hc'
      -- the course of the session is the cluster's course of that id
      have hcc' : c' = c := by
        rw [← hk, hkc, hcc] at hc'c
        exact (Option.some.inj hc'c).symm
      subst hcc'
      exact ⟨c', hcc, hkc, h0, hlt⟩
    · rintro ⟨c', hc', hk, h0, hlt⟩
      rw [hcc] at hc'
      cases hc'
      exact ⟨⟨c, hc, hk, h0, hlt⟩, hk⟩
  rw [List.countP_eq_length_filter, hperm.length_eq, length_sessionsOf, hcc]
  rfl

end Cluster

namespace Search

variable {e : Catalog} {ids : List String} {budget : Int} {deadline : Nat → Bool}

/-- The state an exact search over some courses starts from. -/
def start (t : Timetable) (d : Domain) (courses : List Course) (budget : Int) (deadline : Nat → Bool) :
    Search :=
  { timetable := t, domain := d, courses, budget,
    next := courses.foldl (fun m c => m.insert c.id 0) {}, deadline }

/-- No session is placed when a search starts. -/
@[simp] theorem nextOf_start (t : Timetable) (d : Domain) (courses : List Course) (budget : Int)
    (deadline : Nat → Bool) (id : String) : (start t d courses budget deadline).nextOf id = 0 := by
  -- every entry entered is zero
  suffices h : ∀ (cs : List Course) (m : Std.HashMap String Nat), (∀ x : String, m[x]?.getD 0 = 0) →
      (cs.foldl (fun m c => m.insert c.id 0) m)[id]?.getD 0 = 0 from h courses ∅ fun x ↦ by simp
  intro cs
  induction cs with
  | nil => exact fun m hm ↦ hm id
  | cons c cs ih =>
    refine fun m hm ↦ ih _ fun x ↦ ?_
    rw [Std.HashMap.getElem?_insert]
    split <;> simp [hm]

/-- A search over the search courses of distinct ids, from the empty timetable of a catalog and
without a budget or a deadline, starts sound. -/
theorem sound_start (he : e.Indexed) (hids : ids.Nodup) (hbudget : budget ≤ 0)
    (hdeadline : ∀ n, deadline n = false) :
    Sound e (start (Timetable.empty e) (Domain.build e) (e.searchCourses ids) budget deadline) where
  catalog := rfl
  domain := rfl
  courses c hc := by
    obtain ⟨-, hc, hpos⟩ := (Catalog.mem_searchCourses he).mp hc
    exact ⟨hc, hpos⟩
  nodup := Catalog.searchCourses_nodup he hids
  budget := hbudget
  untimed := hdeadline
  next_le c hc := by
    have := ((Catalog.mem_searchCourses he).mp hc).2.2
    rw [nextOf_start]
    omega
  placed k := by
    constructor
    · intro hk
      exact absurd hk Std.HashMap.not_mem_empty
    · rintro ⟨c, -, -, h0, hlt⟩
      rw [nextOf_start] at hlt
      omega
  trail := ⟨[], Timetable.empty e, rfl, .refl _⟩

variable {cl : Cluster} {L : List (SessionKey × Placement)} {u : Timetable}

/-- The placements of a complete assignment of a cluster, read by course, complete the start of
a search over it. -/
theorem completion_start (he : e.Indexed) (har : e.Arranged) (hids : cl.courseIds.Nodup)
    (hperm : (L.map (·.1)).Perm (cl.keys e)) (hL : (Timetable.empty e).assignAll L = .ok u) :
    Completion (start (Timetable.empty e) (Domain.build e) (e.searchCourses cl.courseIds) budget deadline)
      (L.map fun kp => (kp.1.course, kp.2)) := by
  have hadm := Timetable.admits_of_assignAll he (Timetable.admits_nil_empty e) hL
  refine ⟨hadm, fun c hc ↦ ?_, fun x hx ↦ ?_, fun x hx ↦ ?_⟩
  · -- as many placements of the course as it has sessions
    have hcount : (L.map (·.1)).countP (·.course == c.id) = c.sessions.toNat := by
      rw [hperm.countP_eq, Cluster.countP_keys_course he hids hc]
    rw [nextOf_start, Nat.add_zero, List.countP_map]
    rw [List.countP_map] at hcount
    exact hcount
  · obtain ⟨kp, hkp, rfl⟩ := List.mem_map.mp hx
    obtain ⟨c, hc, hk, -⟩ := (Cluster.mem_keys he).mp (hperm.subset (List.mem_map_of_mem hkp))
    exact ⟨c, hc, hk⟩
  · -- nothing is placed yet, and every allowed slot has a position
    obtain ⟨c, -, hslot, -⟩ := hadm.allows x hx
    have := har.slotOrder_nonneg hslot
    have hlast : (start (Timetable.empty e) (Domain.build e) (e.searchCourses cl.courseIds)
        budget deadline).lastOrder x.1 = -1 := by
      simp [lastOrder]
    rw [hlast]
    show -1 < e.slotOrder x.2.slot
    omega

end Search

namespace Catalog

open Search

variable {e : Catalog} {cl : Cluster} {L : List (SessionKey × Placement)} {u : Timetable}

/-- A cluster that has a complete assignment passes the up-front refusal: each count it compares
is bounded by the assignment's placements, which for one course or one member of staff lie in
distinct candidate slots and within the weekly cap. -/
theorem refusedUpfront_eq_false (he : e.Indexed) (har : e.Arranged) (hids : cl.courseIds.Nodup)
    (hperm : (L.map (·.1)).Perm (cl.keys e)) (hL : (Timetable.empty e).assignAll L = .ok u) :
    e.refusedUpfront (Domain.build e) (e.searchCourses cl.courseIds) = false := by
  have hR : Completion (start (Timetable.empty e) (Domain.build e) (e.searchCourses cl.courseIds) 0
      fun _ ↦ false) (L.map fun kp => (kp.1.course, kp.2)) := completion_start he har hids hperm hL
  have hadm : (Timetable.empty e).Admits (L.map fun kp => (kp.1.course, kp.2)) := hR.admits
  -- a placement of the assignment for a course is one of the course's candidates
  have hcand : ∀ x ∈ L.map (fun kp => (kp.1.course, kp.2)), ∀ c ∈ e.searchCourses cl.courseIds,
      x.1 = c.id → x.2 ∈ (Domain.build e).forCourse c.id := by
    intro x hx c hc hxc
    obtain ⟨-, hcc, -⟩ := (mem_searchCourses he).mp hc
    obtain ⟨c', hc', hallow⟩ := hadm.allows x hx
    rw [Timetable.empty_catalog, hxc, hcc] at hc'
    cases hc'
    rw [Domain.forCourse_build he (mem_of_course? hcc), mem_candidates_iff har]
    exact hallow
  unfold refusedUpfront
  simp only [Bool.or_eq_false_iff, List.any_eq_false]
  refine ⟨fun c hc ↦ ?_, fun f _ ↦ ?_⟩
  · -- the course's placements lie in distinct candidate slots
    have hcount := hR.count c hc
    rw [nextOf_start, Nat.add_zero] at hcount
    have hle := hadm.countP_le (P := (·.1 == c.id)) (S := Domain.slotsOf ((Domain.build e).forCourse c.id))
      (fun x y hx hy ↦ by rw [beq_iff_eq] at hx hy; rw [hx, hy]) fun x hx hxc ↦ by
        rw [beq_iff_eq] at hxc
        simp only [Domain.slotsOf, mem_dedupStrings]
        exact List.mem_map_of_mem (hcand x hx c hc hxc)
    have hpos := ((mem_searchCourses he).mp hc).2.2
    have hpos' : 0 < (L.map fun kp => (kp.1.course, kp.2)).countP
        (fun x : String × Placement => x.1 == c.id) := by omega
    obtain ⟨x, hx, hxc⟩ := List.countP_pos_iff.mp hpos'
    rw [beq_iff_eq] at hxc
    have hopt : (Domain.build e).options c.id ≠ 0 := fun h ↦
      List.ne_nil_of_mem (hcand x hx c hc hxc) (List.length_eq_zero_iff.mp h)
    simp only [Domain.distinctSlots, Bool.or_eq_true, beq_iff_eq, hopt, false_or]
    intro hlt
    have := of_decide_eq_true hlt
    omega
  · -- the member's placements lie in distinct candidate slots of their courses, within the cap
    have hdemand : (((L.map fun kp => (kp.1.course, kp.2)).countP
        fun x => (Timetable.empty e).facultyOf x.1 == f : Nat) : Int) =
        ((e.searchCourses cl.courseIds).filter (·.facultyId == f)).foldl
          (fun (n : Int) c => n + c.sessions) 0 := by
      rw [← Cluster.countP_keys_faculty he cl f, ← hperm.countP_eq, List.countP_map, List.countP_map]
      rfl
    have hslots : ((L.map fun kp => (kp.1.course, kp.2)).countP
        fun x => (Timetable.empty e).facultyOf x.1 == f) ≤
        (dedupStrings (((e.searchCourses cl.courseIds).filter (·.facultyId == f)).flatMap
          fun c => Domain.slotsOf ((Domain.build e).forCourse c.id))).length :=
      hadm.countP_le (fun x y hx hy ↦ by rw [beq_iff_eq] at hx hy; rw [hx, hy]) fun x hx hxf ↦ by
        rw [beq_iff_eq] at hxf
        obtain ⟨c, hc, hxc⟩ := hR.courses x hx
        obtain ⟨-, hcc, -⟩ := (mem_searchCourses he).mp hc
        have hfac : c.facultyId = f := by simpa [Timetable.facultyOf, hxc, hcc] using hxf
        simp only [mem_dedupStrings, List.mem_flatMap, List.mem_filter, Domain.slotsOf]
        exact ⟨c, ⟨hc, by simp [hfac]⟩, List.mem_map_of_mem (hcand x hx c hc hxc)⟩
    have hcap : ∀ fac, e.faculty? f = some fac → 0 < fac.maxWeeklySessions →
        (((L.map fun kp => (kp.1.course, kp.2)).countP
          fun x => (Timetable.empty e).facultyOf x.1 == f : Nat) : Int) ≤ fac.maxWeeklySessions :=
      fun fac hfac hpos ↦ by
        have hw : Timetable.weeklyCap e f = fac.maxWeeklySessions := by
          simp [Timetable.weeklyCap, hfac]
        have := hadm.underCap f (by rw [Timetable.empty_catalog, hw]; exact hpos)
        simpa [Timetable.facultyLoad, hw] using this
    simp only [Bool.or_eq_true, not_or]
    refine ⟨fun h ↦ ?_, ?_⟩
    · have := of_decide_eq_true h
      omega
    · split
      · rename_i fac hfac
        intro h
        obtain ⟨hpos, hgt⟩ := of_decide_eq_true h
        have := hcap fac hfac hpos
        omega
      · simp

end Catalog

/-- An exact search, after the up-front refusal, runs from its start state with depth one more
than the number of sessions to place, and with a deadline only when its timeout is positive. -/
theorem Timetable.solveExact_eq (t : Timetable) (d : Domain) (ids : List String) (timeout : Int)
    (pastDeadline : Nat → Bool) (budget : Int) :
    t.solveExact d ids timeout pastDeadline budget =
      if t.catalog.refusedUpfront d (t.catalog.searchCourses ids) then (0, .error .infeasible, t)
      else
        match Search.solve ((t.catalog.searchCourses ids).foldl (fun n c => n + c.sessions.toNat) 0 + 1)
            (Search.start t d (t.catalog.searchCourses ids) budget
              fun n => decide (timeout > 0) && pastDeadline n) with
        | (r, s) => (s.nodes, r, s.timetable) := rfl

namespace Search

variable {e : Catalog} {s : Search}

/-- In a sound state with every session placed, the placed sessions are all sessions of its
courses. -/
theorem Sound.mem_placements_of_complete (hs : Sound e s) (hc : Complete s) {k : SessionKey} :
    k ∈ s.timetable.placements ↔
      ∃ c ∈ s.courses, k.course = c.id ∧ 0 ≤ k.index ∧ k.index < c.sessions := by
  rw [hs.placed]
  -- a course with no session pending has its next session number at its count
  have hnext : ∀ c ∈ s.courses, (s.nextOf c.id : Int) = c.sessions := fun c hc' ↦ by
    have hle := hs.next_le c hc'
    have hnot := hc c hc'
    simp only [pending, decide_eq_false_iff_not, not_lt] at hnot
    omega
  constructor
  · rintro ⟨c, hc', hk, h0, hlt⟩
    exact ⟨c, hc', hk, h0, hnext c hc' ▸ hlt⟩
  · rintro ⟨c, hc', hk, h0, hlt⟩
    exact ⟨c, hc', hk, h0, (hnext c hc').symm ▸ hlt⟩

end Search

namespace Timetable

variable {e : Catalog} {cl : Cluster} {timeout budget : Int} {pastDeadline : Nat → Bool}

/-- Without a positive timeout the search has no deadline. -/
theorem deadline_of_timeout (htimeout : timeout ≤ 0) (pastDeadline : Nat → Bool) :
    ∀ n, (decide (timeout > 0) && pastDeadline n) = false := fun _ ↦ by
  simp [show ¬ timeout > 0 by omega]

/-- A successful exact search over a cluster of distinct ids leaves a timetable that answers like
a complete assignment of the cluster to the empty timetable. -/
theorem solveExact_ok (he : e.Indexed) (hids : cl.courseIds.Nodup) (htimeout : timeout ≤ 0)
    (hbudget : budget ≤ 0) {n : Nat} {t : Timetable}
    (h : (empty e).solveExact (Domain.build e) cl.courseIds timeout pastDeadline budget = (n, .ok (), t)) :
    ∃ L u, (L.map (·.1)).Perm (cl.keys e) ∧ (empty e).assignAll L = .ok u ∧ t.Agrees u := by
  rw [solveExact_eq, empty_catalog] at h
  split at h
  · cases h
  have hend := Search.solve_ends he
    ((e.searchCourses cl.courseIds).foldl (fun n c => n + c.sessions.toNat) 0 + 1) _
    (Search.sound_start he hids hbudget (deadline_of_timeout htimeout pastDeadline))
  generalize Search.solve _ _ = res at h hend
  obtain ⟨r, s'⟩ := res
  rcases r with f | ⟨⟩
  · cases h
  obtain ⟨hs', hcs, hcomplete⟩ := hend
  cases h
  obtain ⟨L, u, hL, hu⟩ := hs'.trail
  obtain ⟨hmem, hnodup, -⟩ := assignAll_placements hL
  refine ⟨L, u, (List.perm_ext_iff_of_nodup hnodup (Cluster.keys_nodup hids)).mpr fun k ↦ ?_, hL, hu⟩
  -- the assigned sessions are the placed ones, which are all sessions of the cluster
  have hcs' : s'.courses = e.searchCourses cl.courseIds := hcs
  rw [Cluster.mem_keys he, ← hcs', ← hs'.mem_placements_of_complete hcomplete, hu.mem_placements,
    hmem]
  simp

/-- An exact search without a deadline or a budget fails only as infeasible, and then leaves the
empty timetable it started from, up to storage. -/
theorem solveExact_error (he : e.Indexed) (hids : cl.courseIds.Nodup) (htimeout : timeout ≤ 0)
    (hbudget : budget ≤ 0) {n : Nat} {f : SearchFault} {t : Timetable}
    (h : (empty e).solveExact (Domain.build e) cl.courseIds timeout pastDeadline budget = (n, .error f, t)) :
    f = .infeasible ∧ t.Agrees (empty e) := by
  rw [solveExact_eq, empty_catalog] at h
  split at h
  · cases h
    exact ⟨rfl, .refl _⟩
  have hend := Search.solve_ends he
    ((e.searchCourses cl.courseIds).foldl (fun n c => n + c.sessions.toNat) 0 + 1) _
    (Search.sound_start he hids hbudget (deadline_of_timeout htimeout pastDeadline))
  generalize Search.solve _ _ = res at h hend
  obtain ⟨r, s'⟩ := res
  rcases r with f' | ⟨⟩
  · cases h
    -- the failed search gave back its start state, whose timetable is the empty one
    obtain ⟨rfl, hagree⟩ := hend
    exact ⟨rfl, hagree.timetable.symm⟩
  · cases h

/-- An exact search without a deadline or a budget over a cluster that can be completed
succeeds. -/
theorem solveExact_ok_of_completable (he : e.Indexed) (har : e.Arranged)
    (hids : cl.courseIds.Nodup) (htimeout : timeout ≤ 0) (hbudget : budget ≤ 0)
    (hcl : (empty e).Completable (cl.keys e)) :
    ((empty e).solveExact (Domain.build e) cl.courseIds timeout pastDeadline budget).2.1 = .ok () := by
  obtain ⟨L, hperm, u, hL⟩ := hcl
  rw [solveExact_eq, empty_catalog, Catalog.refusedUpfront_eq_false he har hids hperm hL]
  -- the completion has as many placements as the cluster has sessions, fewer than the depth
  have hlen : (L.map fun kp => (kp.1.course, kp.2)).length <
      (e.searchCourses cl.courseIds).foldl (fun n c => n + c.sessions.toNat) 0 + 1 := by
    rw [List.length_map, ← Cluster.length_keys, ← hperm.length_eq, List.length_map]
    omega
  have hok := Search.solve_complete he har _ _ _
    (Search.sound_start he hids hbudget (deadline_of_timeout htimeout pastDeadline))
    (Search.completion_start he har hids hperm hL) hlen
  simp only [Bool.false_eq_true, if_false]
  generalize Search.solve _ _ = res at hok ⊢
  obtain ⟨r, s'⟩ := res
  exact hok

end Timetable

/-- Asked for exact solving, a cluster that is not oversized is solved exactly when the exact
search succeeds. -/
theorem Cluster.method_solve (cl : Cluster) (e : Catalog) (d : Domain) (timeout : Int)
    (pastDeadline : Nat → Bool) (budget : Int) (hov : cl.oversized = false) :
    (cl.solve e d true timeout pastDeadline budget).method = "exact" ↔
      ((Timetable.empty e).solveExact d cl.courseIds timeout pastDeadline budget).2.1 = .ok () := by
  unfold Cluster.solve
  simp only [Bool.not_true, Bool.false_eq_true, if_false, hov]
  rcases (Timetable.empty e).solveExact d cl.courseIds timeout pastDeadline budget with ⟨n, r, t⟩
  cases r <;> simp [ClusterSolution.method]

/-- **The exact search is sound and complete.** On the empty timetable of a built catalog, for a
cluster of distinct course ids, with no deadline and no node budget, whatever the clock: the
exact search succeeds exactly when every session of the cluster's known courses can be assigned,
each at some placement, one after another in some order, to the empty timetable; on success it
leaves a timetable that answers every lookup like the timetable such an assignment reaches; it
fails only as infeasible, and then leaves the empty timetable it started from; and so, asked for
exact solving, a cluster that is not oversized is reported solved exactly precisely when it is
feasible on its own. -/
theorem solveExact_sound_and_complete {d : Dataset} {e : Catalog} (hb : Catalog.build d = .ok e)
    (cl : Cluster) (hids : cl.courseIds.Nodup) {timeout : Int} (htimeout : timeout ≤ 0)
    (pastDeadline : Nat → Bool) {budget : Int} (hbudget : budget ≤ 0) :
    (((Timetable.empty e).solveExact (Domain.build e) cl.courseIds timeout pastDeadline budget).2.1 =
        .ok () ↔ (Timetable.empty e).Completable (cl.keys e)) ∧
      (((Timetable.empty e).solveExact (Domain.build e) cl.courseIds timeout pastDeadline budget).2.1 =
          .ok () →
        ∃ L u, (L.map (·.1)).Perm (cl.keys e) ∧ (Timetable.empty e).assignAll L = .ok u ∧
          ((Timetable.empty e).solveExact (Domain.build e) cl.courseIds timeout pastDeadline
            budget).2.2.Agrees u) ∧
      (∀ f, ((Timetable.empty e).solveExact (Domain.build e) cl.courseIds timeout pastDeadline
          budget).2.1 = .error f →
        f = .infeasible ∧ ((Timetable.empty e).solveExact (Domain.build e) cl.courseIds timeout
          pastDeadline budget).2.2.Agrees (Timetable.empty e)) ∧
      (cl.oversized = false →
        ((cl.solve e (Domain.build e) true timeout pastDeadline budget).method = "exact" ↔
          (Timetable.empty e).Completable (cl.keys e))) := by
  have he := Catalog.indexed_of_build hb
  have har := Catalog.arranged_of_build hb
  -- name the search's answer; every part reads it
  obtain ⟨n, r, t, hrun⟩ : ∃ n r t, (Timetable.empty e).solveExact (Domain.build e) cl.courseIds
      timeout pastDeadline budget = (n, r, t) := ⟨_, _, _, rfl⟩
  rw [hrun]
  -- a success is a complete assignment, read back from the search's trail
  have hsound : r = .ok () → ∃ L u, (L.map (·.1)).Perm (cl.keys e) ∧
      (Timetable.empty e).assignAll L = .ok u ∧ t.Agrees u := by
    rintro rfl
    exact Timetable.solveExact_ok he hids htimeout hbudget hrun
  have hiff : r = .ok () ↔ (Timetable.empty e).Completable (cl.keys e) := by
    constructor
    · intro hr
      obtain ⟨L, u, hperm, hL, -⟩ := hsound hr
      exact ⟨L, hperm, u, hL⟩
    · intro hcl
      have hok : ((Timetable.empty e).solveExact (Domain.build e) cl.courseIds timeout pastDeadline
          budget).2.1 = .ok () :=
        Timetable.solveExact_ok_of_completable he har hids htimeout hbudget hcl
      rw [hrun] at hok
      exact hok
  refine ⟨hiff, hsound, fun f hf ↦ ?_, fun hov ↦ ?_⟩
  · subst hf
    exact Timetable.solveExact_error he hids htimeout hbudget hrun
  · rw [Cluster.method_solve cl e _ timeout pastDeadline budget hov, hrun]
    exact hiff

theorem solveExact_sound_and_complete_singleRecords :
    ∃ e, Catalog.build Domain.singleRecords = .ok e ∧
      ((((Timetable.empty e).solveExact (Domain.build e) ["c"] 0 (fun _ ↦ false) 0).2.1 = .ok () ↔
          (Timetable.empty e).Completable (({ courseIds := ["c"] } : Cluster).keys e)) ∧
        (((Timetable.empty e).solveExact (Domain.build e) ["c"] 0 (fun _ ↦ false) 0).2.1 = .ok () →
          ∃ L u, (L.map (·.1)).Perm (({ courseIds := ["c"] } : Cluster).keys e) ∧
            (Timetable.empty e).assignAll L = .ok u ∧
            ((Timetable.empty e).solveExact (Domain.build e) ["c"] 0 (fun _ ↦ false) 0).2.2.Agrees u) ∧
        (∀ f, ((Timetable.empty e).solveExact (Domain.build e) ["c"] 0 (fun _ ↦ false) 0).2.1 = .error f →
          f = .infeasible ∧
            ((Timetable.empty e).solveExact (Domain.build e) ["c"] 0 (fun _ ↦ false) 0).2.2.Agrees
              (Timetable.empty e)) ∧
        (({ courseIds := ["c"] } : Cluster).oversized = false →
          ((({ courseIds := ["c"] } : Cluster).solve e (Domain.build e) true 0 (fun _ ↦ false) 0).method =
              "exact" ↔
            (Timetable.empty e).Completable (({ courseIds := ["c"] } : Cluster).keys e)))) := by
  cases hb : Catalog.build Domain.singleRecords with
  | error err =>
    simp [Domain.singleRecords, Catalog.build, Catalog.indexFaculty, Catalog.indexSlots,
      Catalog.indexRooms, Catalog.indexCourses, Catalog.courseStudents, stableSort, dedupStrings,
      sortStrings] at hb
    cases hb
  | ok e =>
    exact ⟨e, rfl, solveExact_sound_and_complete hb { courseIds := ["c"] } (by simp) le_rfl
      (fun _ ↦ false) le_rfl⟩

end Timetabling
