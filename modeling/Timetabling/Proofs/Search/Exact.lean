import Mathlib.Data.List.MinMax
import Timetabling.Search.Exact
import Timetabling.Proofs.Search.Domain
import Timetabling.Proofs.Timetable.Assignable

/-! # The exact search is sound and complete

A search state starts from the empty timetable of a catalog. `Search.Sound` is what every state
of a run satisfies: the sessions placed are exactly those below each course's next session
number, and the timetable answers every lookup like the timetable a run of accepted assignments
reaches from the empty one (`Timetable.Agrees`). One step either places a session or gives back
its state up to storage (`Search.Agrees`), so by induction on the depth a run ends with every
session placed (`Search.solve_ends`), or fails having given back its state.

Completeness runs the other way. `Search.Completion` is a set of placements, read by course,
for the sessions still to place, that the timetable admits together, each later in the week than
the last placed session of its course. If one exists, the placement of least week position of the
chosen course is among the options, placing it leaves a completion of the rest, and every course
keeps enough viable slots; so the run reaches it and succeeds (`Search.solve_complete`). Sessions
of one course are interchangeable, so a completion with its sessions in week order exists as soon
as any does. -/

namespace Timetabling

namespace Search

/-! ## One step of the search -/

/-- Trying one placement for the next session of a course, unless an earlier one settled the
step: assign it, search on if every course keeps enough viable placements, and take it back
when that search fails. -/
def attempt (depth : Nat) (c : Course) (key : SessionKey)
    (acc : Option (Except SearchFault Unit) × Search) (p : Placement) :
    Option (Except SearchFault Unit) × Search :=
  match acc with
  | (some r, s) => (some r, s)
  | (none, s) =>
    match s.timetable.assign key p with
    | .error _ => (none, s)
    | .ok t =>
      let s := { s with timetable := t }.bump c.id true
      let (r, s) := if s.forwardCheck then solve depth s else (.error .infeasible, s)
      match r with
      | .ok () => (some (.ok ()), s)
      | .error .infeasible =>
        let s := s.bump c.id false
        (none, { s with timetable := (s.timetable.unassign key).2 })
      | .error f => (some (.error f), s)

theorem solve_succ (depth : Nat) (s : Search) :
    solve (depth + 1) s =
      (let s := { s with nodes := s.nodes + 1 }
       if s.budget > 0 ∧ (s.nodes : Int) > s.budget then (.error .budget, s)
       else if s.nodes % 64 = 0 ∧ s.deadline s.nodes then (.error .timeout, s)
       else match s.pick with
         | none => (.ok (), s)
         | some (_, []) => (.error .infeasible, s)
         | some (c, options) =>
           let (outcome, s) := options.foldl (attempt depth c ⟨c.id, s.nextOf c.id⟩) (none, s)
           ((outcome.getD (.error .infeasible)), s)) := rfl

/-- Once a step is settled, the remaining placements are not tried. -/
theorem foldl_attempt_some (depth : Nat) (c : Course) (key : SessionKey) (r : Except SearchFault Unit)
    (ps : List Placement) (s : Search) : ps.foldl (attempt depth c key) (some r, s) = (some r, s) := by
  induction ps with
  | nil => rfl
  | cons p ps ih => exact ih

/-! ## Viable placements -/

/-- The week position the next session of a course must come after: that of its previous
session, or `-1` before the first. -/
def lastOrder (s : Search) (id : String) : Int :=
  if s.nextOf id > 0 then
    s.timetable.catalog.slotOrder
      (((s.timetable.lookup ⟨id, (s.nextOf id - 1 : Nat)⟩).map (·.slot)).getD "")
  else -1

theorem mem_viable {s : Search} {c : Course} {p : Placement} :
    p ∈ s.viable c ↔ p ∈ s.domain.forKey ⟨c.id, s.nextOf c.id⟩ ∧
      s.lastOrder c.id < s.timetable.catalog.slotOrder p.slot ∧
      s.timetable.check ⟨c.id, s.nextOf c.id⟩ p = none := by
  simp [viable, lastOrder, Option.isNone_iff_eq_none]

@[simp] theorem nextOf_bump (s : Search) (id id' : String) (forward : Bool) :
    (s.bump id forward).nextOf id' =
      if id = id' then (if forward then s.nextOf id + 1 else s.nextOf id - 1) else s.nextOf id' := by
  simp only [nextOf, bump, Std.HashMap.getElem?_insert, beq_iff_eq]
  split <;> simp

@[simp] theorem bump_timetable (s : Search) (id : String) (forward : Bool) :
    (s.bump id forward).timetable = s.timetable := rfl

@[simp] theorem bump_domain (s : Search) (id : String) (forward : Bool) :
    (s.bump id forward).domain = s.domain := rfl

@[simp] theorem bump_courses (s : Search) (id : String) (forward : Bool) :
    (s.bump id forward).courses = s.courses := rfl

@[simp] theorem bump_budget (s : Search) (id : String) (forward : Bool) :
    (s.bump id forward).budget = s.budget := rfl

@[simp] theorem bump_deadline (s : Search) (id : String) (forward : Bool) :
    (s.bump id forward).deadline = s.deadline := rfl

/-! ## States that differ only in storage -/

/-- Two search states with timetables that answer alike, the same domain, courses, budget and
deadline, and the same next session of every course. The nodes visited are not compared. -/
structure Agrees (s s' : Search) : Prop where
  timetable : s.timetable.Agrees s'.timetable
  domain : s.domain = s'.domain
  courses : s.courses = s'.courses
  nextOf : ∀ id, s.nextOf id = s'.nextOf id
  budget : s.budget = s'.budget
  deadline : s.deadline = s'.deadline

namespace Agrees

variable {s s' s'' : Search}

theorem refl (s : Search) : s.Agrees s :=
  ⟨.refl _, rfl, rfl, fun _ ↦ rfl, rfl, rfl⟩

theorem symm (h : s.Agrees s') : s'.Agrees s :=
  ⟨h.timetable.symm, h.domain.symm, h.courses.symm, fun id ↦ (h.nextOf id).symm, h.budget.symm,
    h.deadline.symm⟩

theorem trans (h₁ : s.Agrees s') (h₂ : s'.Agrees s'') : s.Agrees s'' :=
  ⟨h₁.timetable.trans h₂.timetable, h₁.domain.trans h₂.domain, h₁.courses.trans h₂.courses,
    fun id ↦ (h₁.nextOf id).trans (h₂.nextOf id), h₁.budget.trans h₂.budget,
    h₁.deadline.trans h₂.deadline⟩

theorem pending_eq (h : s.Agrees s') (c : Course) : s.pending c = s'.pending c := by
  simp [pending, h.nextOf]

theorem lastOrder_eq (h : s.Agrees s') (id : String) : s.lastOrder id = s'.lastOrder id := by
  simp [lastOrder, h.nextOf, h.timetable.catalog, h.timetable.lookup_eq]

end Agrees

/-- Counting a node changes nothing else. -/
theorem agrees_nodes (s : Search) (n : Nat) : s.Agrees { s with nodes := n } :=
  ⟨.refl _, rfl, rfl, fun _ ↦ rfl, rfl, rfl⟩

/-! ## What `pick` chooses -/

/-- `pick.go` returns the course it started with or a pending course of the list with its viable
placements. -/
theorem pick_go_eq_some {s : Search} {c : Course} {o : List Placement} :
    ∀ {cs : List Course} {best : Option (Course × List Placement)}, pick.go s cs best = some (c, o) →
      best = some (c, o) ∨ c ∈ cs ∧ s.pending c = true ∧ o = s.viable c
  | [], _, h => .inl h
  | c' :: cs, best, h => by
    simp only [pick.go] at h
    split at h
    · rcases pick_go_eq_some h with h | ⟨hc, hp, ho⟩
      · exact .inl h
      · exact .inr ⟨List.mem_cons_of_mem _ hc, hp, ho⟩
    rename_i hpend
    have hp : s.pending c' = true := by simpa using hpend
    -- every branch keeps the best so far or takes `c'` with its viable placements
    have hnew : pick.go s cs (some (c', s.viable c')) = some (c, o) →
        best = some (c, o) ∨ c ∈ c' :: cs ∧ s.pending c = true ∧ o = s.viable c := fun h' ↦ by
      rcases pick_go_eq_some h' with h' | ⟨hc, hp', ho⟩
      · cases h'
        exact .inr ⟨List.mem_cons_self .., hp, rfl⟩
      · exact .inr ⟨List.mem_cons_of_mem _ hc, hp', ho⟩
    have hself : some (c', s.viable c') = some (c, o) →
        best = some (c, o) ∨ c ∈ c' :: cs ∧ s.pending c = true ∧ o = s.viable c := fun h' ↦ by
      cases h'
      exact .inr ⟨List.mem_cons_self .., hp, rfl⟩
    split at h
    · split at h
      · split at h
        · exact hself h
        · exact hnew h
      · rcases pick_go_eq_some h with h | ⟨hc, hp', ho⟩
        · exact .inl h
        · exact .inr ⟨List.mem_cons_of_mem _ hc, hp', ho⟩
    · split at h
      · exact hself h
      · exact hnew h

/-- `pick.go` finds nothing only when it started with nothing and no course of the list is
pending. -/
theorem pick_go_eq_none {s : Search} :
    ∀ {cs : List Course} {best : Option (Course × List Placement)}, pick.go s cs best = none →
      best = none ∧ ∀ c ∈ cs, s.pending c = false
  | [], _, h => ⟨h, by simp⟩
  | c' :: cs, best, h => by
    simp only [pick.go] at h
    split at h
    · obtain ⟨hb, hcs⟩ := pick_go_eq_none h
      rename_i hpend
      exact ⟨hb, fun c hc ↦ by
        rcases List.mem_cons.mp hc with rfl | hc
        · simpa using hpend
        · exact hcs c hc⟩
    split at h
    · split at h
      · split at h
        · cases h
        · exact absurd (pick_go_eq_none h).1 (by simp)
      · exact absurd (pick_go_eq_none h).1 (by simp)
    · split at h
      · cases h
      · exact absurd (pick_go_eq_none h).1 (by simp)

/-- The course `pick` chooses is a pending course of the search, given with its viable
placements. -/
theorem pick_eq_some {s : Search} {c : Course} {o : List Placement} (h : s.pick = some (c, o)) :
    c ∈ s.courses ∧ s.pending c = true ∧ o = s.viable c := by
  rcases pick_go_eq_some h with h | h
  · cases h
  · exact h

/-- `pick` finds nothing exactly when no course is pending. -/
theorem pick_eq_none {s : Search} (h : s.pick = none) : ∀ c ∈ s.courses, s.pending c = false :=
  (pick_go_eq_none h).2

@[simp] theorem nextOf_with_timetable (s : Search) (t : Timetable) (id : String) :
    ({ s with timetable := t } : Search).nextOf id = s.nextOf id := rfl

/-- Placing the next session of a course makes its placement the one to come after. -/
theorem lastOrder_place_bump (s : Search) (c : Course) (q : Placement) (id : String) :
    ({ s with timetable := s.timetable.place ⟨c.id, s.nextOf c.id⟩ q }.bump c.id true).lastOrder id =
      if c.id = id then s.timetable.catalog.slotOrder q.slot else s.lastOrder id := by
  unfold lastOrder
  by_cases hid : c.id = id
  · subst hid
    simp [Timetable.lookup]
  · have hne : ∀ n : Int, (⟨c.id, s.nextOf c.id⟩ : SessionKey) ≠ ⟨id, n⟩ := fun n h ↦
      hid (SessionKey.mk.inj h).1
    simp [hid, Timetable.lookup, Std.HashMap.getElem?_insert, hne]

/-! ## The invariant of a run -/

variable {e : Catalog}

/-- What every state of an exact search started on the empty timetable of a catalog satisfies:
its courses are distinct known courses with sessions, no budget or deadline bounds it, the sessions placed
are exactly those below each course's next session, and its timetable answers like one that
accepted assignments reach from the empty timetable. -/
structure Sound (e : Catalog) (s : Search) : Prop where
  catalog : s.timetable.catalog = e
  domain : s.domain = Domain.build e
  courses : ∀ c ∈ s.courses, e.course? c.id = some c ∧ 0 < c.sessions
  nodup : (s.courses.map (·.id)).Nodup
  budget : s.budget ≤ 0
  untimed : ∀ n, s.deadline n = false
  next_le : ∀ c ∈ s.courses, (s.nextOf c.id : Int) ≤ c.sessions
  placed : ∀ k, k ∈ s.timetable.placements ↔
    ∃ c ∈ s.courses, k.course = c.id ∧ 0 ≤ k.index ∧ k.index < s.nextOf c.id
  trail : ∃ L u, (Timetable.empty e).assignAll L = .ok u ∧ s.timetable.Agrees u

/-- Every course of a search has all its sessions placed. -/
def Complete (s : Search) : Prop := ∀ c ∈ s.courses, s.pending c = false

namespace Sound

variable {s s' : Search}

theorem congr (h : Sound e s) (ha : s.Agrees s') : Sound e s' where
  catalog := by rw [← ha.timetable.catalog]; exact h.catalog
  domain := by rw [← ha.domain]; exact h.domain
  courses := by rw [← ha.courses]; exact h.courses
  nodup := by rw [← ha.courses]; exact h.nodup
  budget := by rw [← ha.budget]; exact h.budget
  untimed := by rw [← ha.deadline]; exact h.untimed
  next_le c hc := by
    rw [← ha.nextOf]
    exact h.next_le c (ha.courses ▸ hc)
  placed k := by
    rw [← ha.timetable.mem_placements, h.placed, ha.courses]
    simp only [ha.nextOf]
  trail := by
    obtain ⟨L, u, hL, hu⟩ := h.trail
    exact ⟨L, u, hL, ha.timetable.symm.trans hu⟩

/-- Two courses of a sound search with one id are one course. -/
theorem course_eq (h : Sound e s) {c c' : Course} (hc : c ∈ s.courses) (hc' : c' ∈ s.courses)
    (hid : c.id = c'.id) : c = c' := by
  have h₁ := (h.courses c hc).1
  rw [hid, (h.courses c' hc').1] at h₁
  exact (Option.some.inj h₁).symm

theorem lt_of_pending (_ : Sound e s) {c : Course} (hp : s.pending c = true) :
    (s.nextOf c.id : Int) < c.sessions := by
  simpa [pending] using hp

/-- Placing the next session of a pending course keeps a state sound. -/
theorem assign (h : Sound e s) {c : Course} (hc : c ∈ s.courses) (hp : s.pending c = true)
    {p : Placement} {t : Timetable} (ha : s.timetable.assign ⟨c.id, s.nextOf c.id⟩ p = .ok t) :
    Sound e ({ s with timetable := t }.bump c.id true) where
  catalog := by
    obtain ⟨-, rfl⟩ := Timetable.assign_eq_ok.mp ha
    simpa using h.catalog
  domain := h.domain
  courses := h.courses
  nodup := h.nodup
  budget := h.budget
  untimed := h.untimed
  next_le c' hc' := by
    have hle := h.next_le c' hc'
    have hlt := h.lt_of_pending hp
    simp only [nextOf_bump, nextOf_with_timetable, if_true]
    split
    · rename_i hid
      obtain rfl := h.course_eq hc hc' hid
      push_cast
      omega
    · exact hle
  placed k := by
    obtain ⟨-, rfl⟩ := Timetable.assign_eq_ok.mp ha
    have hlt := h.lt_of_pending hp
    simp only [bump_timetable, Timetable.place_placements, Std.HashMap.mem_insert, beq_iff_eq,
      h.placed, bump_courses, nextOf_bump, nextOf_with_timetable, if_true]
    constructor
    · rintro (rfl | ⟨c', hc', hk, h0, hlt'⟩)
      · exact ⟨c, hc, rfl, by simp, by simp only [if_true]; push_cast; omega⟩
      · refine ⟨c', hc', hk, h0, ?_⟩
        split
        · rename_i hid
          rw [hid]
          push_cast
          omega
        · exact hlt'
    · rintro ⟨c', hc', hk, h0, hlt'⟩
      split at hlt'
      · rename_i hid
        -- the session just placed, or one placed before
        by_cases hidx : k.index = s.nextOf c.id
        · left
          cases k
          simp_all
        · right
          refine ⟨c', hc', hk, h0, ?_⟩
          rw [← hid]
          push_cast at hlt'
          omega
      · exact .inr ⟨c', hc', hk, h0, hlt'⟩
  trail := by
    obtain ⟨L, u, hL, hu⟩ := h.trail
    obtain ⟨u', hu', hagree⟩ := hu.assign ha
    exact ⟨L ++ [(⟨c.id, s.nextOf c.id⟩, p)], u', Timetable.assignAll_append_ok hL hu', hagree⟩

end Sound

/-! ## Completions -/

/-- Placements, read by course, for the sessions a search still has to place: admitted together
by its timetable, as many for each course as it has sessions left, each for one of its courses
and later in the week than the last placed session of that course. -/
structure Completion (s : Search) (R : List (String × Placement)) : Prop where
  admits : s.timetable.Admits R
  count : ∀ c ∈ s.courses, R.countP (·.1 == c.id) + s.nextOf c.id = c.sessions.toNat
  courses : ∀ x ∈ R, ∃ c ∈ s.courses, x.1 = c.id
  later : ∀ x ∈ R, s.lastOrder x.1 < s.timetable.catalog.slotOrder x.2.slot

namespace Completion

variable {s s' : Search} {R : List (String × Placement)} {c : Course} {q : Placement}

theorem congr (h : Completion s R) (ha : s.Agrees s') : Completion s' R where
  admits := h.admits.agrees ha.timetable
  count c hc := by
    rw [← ha.nextOf]
    exact h.count c (ha.courses ▸ hc)
  courses x hx := by
    rw [← ha.courses]
    exact h.courses x hx
  later x hx := by
    rw [← ha.lastOrder_eq, ← ha.timetable.catalog]
    exact h.later x hx

/-- A pending course has a placement left in a completion. -/
theorem exists_of_pending (hs : Sound e s) (h : Completion s R) (hc : c ∈ s.courses)
    (hp : s.pending c = true) : ∃ q, (c.id, q) ∈ R := by
  have hcount := h.count c hc
  have hlt := hs.lt_of_pending hp
  have hpos : 0 < R.countP (·.1 == c.id) := by omega
  obtain ⟨x, hx, hxc⟩ := List.countP_pos_iff.mp hpos
  rw [beq_iff_eq] at hxc
  exact ⟨x.2, by rw [← hxc]; exact hx⟩

/-- Among the placements a completion has for a pending course, one has the least week
position. -/
theorem exists_min (hs : Sound e s) (h : Completion s R) (hc : c ∈ s.courses)
    (hp : s.pending c = true) :
    ∃ q, (c.id, q) ∈ R ∧ ∀ y ∈ R, y.1 = c.id →
      s.timetable.catalog.slotOrder q.slot ≤ s.timetable.catalog.slotOrder y.2.slot := by
  obtain ⟨q₀, hq₀⟩ := h.exists_of_pending hs hc hp
  let f : String × Placement → Int := fun y ↦ s.timetable.catalog.slotOrder y.2.slot
  have hne : R.filter (·.1 == c.id) ≠ [] :=
    List.ne_nil_of_mem (List.mem_filter.mpr ⟨hq₀, by simp⟩)
  have hnone : List.argmin f (R.filter (·.1 == c.id)) ≠ none := fun h' ↦ hne (List.argmin_eq_none.mp h')
  obtain ⟨m, hm⟩ := Option.ne_none_iff_exists'.mp hnone
  have hmem := List.mem_filter.mp (List.argmin_mem hm)
  have hm1 : m.1 = c.id := by simpa using hmem.2
  refine ⟨m.2, by rw [← hm1]; exact hmem.1, fun y hy hyc ↦ ?_⟩
  exact List.le_of_mem_argmin (f := f) (List.mem_filter.mpr ⟨hy, by simp [hyc]⟩) hm

/-- A completion's placement for a pending course fits its next session. -/
theorem fits (he : e.Indexed) (hs : Sound e s) (h : Completion s R) (hc : c ∈ s.courses)
    (hp : s.pending c = true) (hq : (c.id, q) ∈ R) :
    s.timetable.Fits ⟨c.id, s.nextOf c.id⟩ q c := by
  have hi : s.timetable.catalog.Indexed := hs.catalog ▸ he
  refine (h.admits.perm (List.perm_cons_erase hq)).fits hi (hs.catalog ▸ (hs.courses c hc).1)
    (by simp) (hs.lt_of_pending hp) fun hk ↦ ?_
  -- the next session is not placed yet
  obtain ⟨c', hc', hid, -, hlt⟩ := (hs.placed _).mp hk
  rw [← hs.course_eq hc hc' hid] at hlt
  exact lt_irrefl _ hlt

/-- A completion's placement for a pending course is one of its viable placements. -/
theorem mem_viable (he : e.Indexed) (har : e.Arranged) (hs : Sound e s) (h : Completion s R)
    (hc : c ∈ s.courses) (hp : s.pending c = true) (hq : (c.id, q) ∈ R) : q ∈ s.viable c := by
  have hf := h.fits he hs hc hp hq
  have hallow : e.Allows c q := by
    obtain ⟨c', hc', hallow⟩ := h.admits.allows _ hq
    rw [hs.catalog, (hs.courses c hc).1] at hc'
    cases hc'
    rwa [hs.catalog] at hallow
  refine Search.mem_viable.mpr ⟨?_, h.later _ hq, Timetable.check_eq_none_iff.mpr ⟨c, hf⟩⟩
  rw [Domain.forKey, hs.domain, Domain.forCourse_build he (Catalog.mem_of_course? (hs.courses c hc).1),
    Catalog.mem_candidates_iff har]
  exact hallow

/-- With a completion, every pending course keeps a viable placement and as many viable slots as
it has sessions left. -/
theorem forwardCheck (he : e.Indexed) (har : e.Arranged) (hs : Sound e s) (h : Completion s R) :
    s.forwardCheck = true := by
  unfold Search.forwardCheck
  rw [List.all_eq_true]
  intro c hc
  dsimp only
  split
  · rfl
  rename_i hrem
  have hp : s.pending c = true := by
    simp only [pending, decide_eq_true_eq]
    omega
  -- the completion's placements for the course are viable and in distinct slots
  have hle : R.countP (·.1 == c.id) ≤ (Domain.slotsOf (s.viable c)).length := by
    refine h.admits.countP_le (fun x y hx hy ↦ ?_) fun x hx hxc ↦ ?_
    · rw [beq_iff_eq] at hx hy
      rw [hx, hy]
    · rw [beq_iff_eq] at hxc
      simp only [Domain.slotsOf, mem_dedupStrings]
      exact List.mem_map_of_mem (h.mem_viable he har hs hc hp (by rw [← hxc]; exact hx))
  have hcount := h.count c hc
  obtain ⟨q, hq⟩ := h.exists_of_pending hs hc hp
  have hne : (s.viable c).isEmpty = false :=
    List.isEmpty_eq_false_iff.mpr (List.ne_nil_of_mem (h.mem_viable he har hs hc hp hq))
  rw [hne, Bool.not_false, Bool.true_and, decide_eq_true_eq]
  omega

/-- Placing a completion's placement of least week position for the next session of a course
leaves a completion of the rest. -/
theorem place (har : e.Arranged) (hs : Sound e s) (h : Completion s R) (hq : (c.id, q) ∈ R)
    (hmin : ∀ y ∈ R, y.1 = c.id →
      s.timetable.catalog.slotOrder q.slot ≤ s.timetable.catalog.slotOrder y.2.slot) :
    Completion ({ s with timetable := s.timetable.place ⟨c.id, s.nextOf c.id⟩ q }.bump c.id true)
      (R.erase (c.id, q)) := by
  have hperm := List.perm_cons_erase hq
  have hadm := h.admits.perm hperm
  refine ⟨Timetable.Admits.place (k := ⟨c.id, s.nextOf c.id⟩) hadm, fun c' hc' ↦ ?_,
    fun x hx ↦ h.courses x (List.mem_of_mem_erase hx), fun x hx ↦ ?_⟩
  · -- one placement fewer for the course, one session more placed
    have hcount := h.count c' hc'
    rw [hperm.countP_eq, List.countP_cons] at hcount
    simp only [nextOf_bump, nextOf_with_timetable, if_true]
    by_cases hid : c.id = c'.id
    · simp only [hid, beq_self_eq_true, if_true] at hcount ⊢
      omega
    · simp only [hid, if_false, beq_iff_eq] at hcount ⊢
      omega
  · rw [lastOrder_place_bump]
    simp only [bump_timetable, Timetable.place_catalog]
    split
    · rename_i hid
      -- the other placements of the course are in other slots, so strictly later
      have hle := hmin x (List.mem_of_mem_erase hx) hid.symm
      have hapart : s.timetable.Apart (c.id, q) x := List.rel_of_pairwise_cons hadm.apart hx
      have hslot : q.slot ≠ x.2.slot := by
        rcases hapart with hslot | ⟨hfac, -, -⟩
        · exact hslot
        · exact absurd (by rw [hid]) hfac
      have hknown : ∀ y ∈ (c.id, q) :: R.erase (c.id, q), (e.slot? y.2.slot).isSome := fun y hy ↦ by
        obtain ⟨-, -, hslot', -⟩ := hadm.allows y hy
        rwa [hs.catalog] at hslot'
      refine lt_of_le_of_ne hle fun heq ↦ hslot ?_
      rw [hs.catalog] at heq
      exact har.slotOrder_inj (hknown _ (List.mem_cons_self ..))
        (hknown _ (List.mem_cons_of_mem _ hx)) heq
    · exact h.later x (List.mem_of_mem_erase hx)

end Completion

/-! ## Runs -/

/-- What a search from a state ends in: on success a sound state over the same courses with
every session placed; on failure, always as infeasible, the state it started from, up to
storage. -/
def Ends (e : Catalog) (s : Search) : Except SearchFault Unit × Search → Prop
  | (.ok (), s') => Sound e s' ∧ s'.courses = s.courses ∧ Complete s'
  | (.error f, s') => f = .infeasible ∧ s.Agrees s'

/-- What trying placements for a step ends in: unsettled, with the state the step started from
up to storage, or settled by a search that placed every session. -/
def AttemptEnds (e : Catalog) (s : Search) : Option (Except SearchFault Unit) × Search → Prop
  | (none, s') => s.Agrees s'
  | (some r, s') => r = .ok () ∧ Sound e s' ∧ s'.courses = s.courses ∧ Complete s'

variable {s : Search} {c : Course}

/-- Taking a placement back after a failed search from it gives back the state before it. -/
theorem agrees_restore (he : e.Indexed) (hs : Sound e s) {p : Placement} {t : Timetable}
    (ha : s.timetable.assign ⟨c.id, s.nextOf c.id⟩ p = .ok t) {s' : Search}
    (h' : ({ s with timetable := t }.bump c.id true).Agrees s') :
    s.Agrees { s'.bump c.id false with
      timetable := ((s'.bump c.id false).timetable.unassign ⟨c.id, s.nextOf c.id⟩).2 } := by
  obtain ⟨hc, rfl⟩ := Timetable.assign_eq_ok.mp ha
  obtain ⟨c', hf⟩ := Timetable.check_eq_none_iff.mp hc
  have hi : s.timetable.catalog.Indexed := hs.catalog ▸ he
  refine ⟨(Timetable.unassign_place_agrees hi hf).symm.trans (h'.timetable.unassign _), h'.domain,
    h'.courses, fun id ↦ ?_, h'.budget, h'.deadline⟩
  have h₁ := h'.nextOf id
  have h₂ := h'.nextOf c.id
  by_cases hid : c.id = id
  · subst hid
    simp only [nextOf_bump, nextOf_with_timetable, if_true, Bool.false_eq_true, if_false] at h₂ ⊢
    omega
  · simp only [nextOf_bump, nextOf_with_timetable, hid, if_false] at h₁ ⊢
    exact h₁

/-- One attempt from an unsettled step gives back its state or settles it with every session
placed. -/
theorem attempt_ends (he : e.Indexed) {depth : Nat} (ih : ∀ s, Sound e s → Ends e s (solve depth s))
    {s₀ : Search} (hs : Sound e s) (h₀ : s.Agrees s₀) (hc : c ∈ s.courses)
    (hp : s.pending c = true) (p : Placement) :
    AttemptEnds e s (attempt depth c ⟨c.id, s.nextOf c.id⟩ (none, s₀) p) := by
  have hs₀ := hs.congr h₀
  have hc₀ : c ∈ s₀.courses := h₀.courses ▸ hc
  have hp₀ : s₀.pending c = true := (h₀.pending_eq c) ▸ hp
  rw [h₀.nextOf c.id]
  simp only [attempt]
  cases ha : s₀.timetable.assign ⟨c.id, s₀.nextOf c.id⟩ p with
  | error _ => exact h₀
  | ok t =>
    have hs₁ := hs₀.assign hc₀ hp₀ ha
    -- the search from the new state, or its refusal by the forward check
    have hend : Ends e ({ s₀ with timetable := t }.bump c.id true)
        (if ({ s₀ with timetable := t }.bump c.id true).forwardCheck then
          solve depth ({ s₀ with timetable := t }.bump c.id true)
        else (.error .infeasible, { s₀ with timetable := t }.bump c.id true)) := by
      split
      · exact ih _ hs₁
      · exact ⟨rfl, .refl _⟩
    dsimp only
    generalize (if ({ s₀ with timetable := t }.bump c.id true).forwardCheck then
          solve depth ({ s₀ with timetable := t }.bump c.id true)
        else (.error .infeasible, { s₀ with timetable := t }.bump c.id true)) = res at hend ⊢
    obtain ⟨r, s₂⟩ := res
    rcases r with f | ⟨⟩
    · obtain ⟨rfl, h₂⟩ := hend
      exact h₀.trans (agrees_restore he hs₀ ha h₂)
    · obtain ⟨hs₂, hcs, hcomplete⟩ := hend
      exact ⟨rfl, hs₂, hcs.trans h₀.courses.symm, hcomplete⟩

/-- Trying placements from an unsettled step gives back its state or settles it with every
session placed. -/
theorem foldl_attempt_ends (he : e.Indexed) {depth : Nat}
    (ih : ∀ s, Sound e s → Ends e s (solve depth s)) (hs : Sound e s) (hc : c ∈ s.courses)
    (hp : s.pending c = true) :
    ∀ (ps : List Placement) (s₀ : Search), s.Agrees s₀ →
      AttemptEnds e s (ps.foldl (attempt depth c ⟨c.id, s.nextOf c.id⟩) (none, s₀))
  | [], _, h₀ => h₀
  | p :: ps, s₀, h₀ => by
    rw [List.foldl_cons]
    have h₁ := attempt_ends he ih hs h₀ hc hp p
    generalize attempt depth c ⟨c.id, s.nextOf c.id⟩ (none, s₀) p = A at h₁ ⊢
    obtain ⟨o, s₁⟩ := A
    cases o with
    | none => exact foldl_attempt_ends he ih hs hc hp ps s₁ h₁
    | some r =>
      rw [foldl_attempt_some]
      exact h₁

/-- **A run ends well.** Searching from a sound state without a budget either succeeds with every
session placed, in a sound state over the same courses, or fails as infeasible having given back
its state up to storage. -/
theorem solve_ends (he : e.Indexed) :
    ∀ (depth : Nat) (s : Search), Sound e s → Ends e s (solve depth s)
  | 0, s, _ => ⟨rfl, .refl s⟩
  | depth + 1, s, hs => by
    rw [solve_succ]
    have ha₁ := agrees_nodes s (s.nodes + 1)
    have hs₁ := hs.congr ha₁
    -- no budget and no deadline: neither the node count nor the clock stops the search
    have hb : ¬ (s.budget > 0 ∧ ((s.nodes + 1 : Nat) : Int) > s.budget) := fun h ↦ by
      have := hs.budget
      omega
    have hd : ¬ ((s.nodes + 1) % 64 = 0 ∧ s.deadline (s.nodes + 1) = true) := fun h ↦ by
      simp [hs.untimed] at h
    dsimp only
    rw [if_neg hb, if_neg hd]
    cases hpick : ({ s with nodes := s.nodes + 1 } : Search).pick with
    | none => exact ⟨hs₁, rfl, pick_eq_none hpick⟩
    | some co =>
      obtain ⟨c, o⟩ := co
      obtain ⟨hc, hp, -⟩ := pick_eq_some hpick
      cases o with
      | nil => exact ⟨rfl, ha₁⟩
      | cons q qs =>
        dsimp only
        have hend := foldl_attempt_ends he (solve_ends he depth) hs₁ hc hp (q :: qs) _ (.refl _)
        generalize List.foldl _ _ _ = A at hend ⊢
        obtain ⟨out, s'⟩ := A
        cases out with
        | none => exact ⟨rfl, ha₁.trans hend⟩
        | some r =>
          obtain ⟨rfl, hs', hcs, hcomplete⟩ := hend
          exact ⟨hs', hcs, hcomplete⟩

/-- With a completion, trying its placement of least week position for a course settles the
step, from any state that agrees with the step's. -/
theorem attempt_completes (he : e.Indexed) (har : e.Arranged) {depth : Nat}
    (ih : ∀ s R, Sound e s → Completion s R → R.length < depth → (solve depth s).1 = .ok ())
    {s₀ : Search} {R : List (String × Placement)} (hs : Sound e s) (h₀ : s.Agrees s₀)
    (hR : Completion s R) (hc : c ∈ s.courses) (hp : s.pending c = true) {q : Placement}
    (hq : (c.id, q) ∈ R)
    (hmin : ∀ y ∈ R, y.1 = c.id →
      s.timetable.catalog.slotOrder q.slot ≤ s.timetable.catalog.slotOrder y.2.slot)
    (hlen : R.length < depth + 1) :
    (attempt depth c ⟨c.id, s.nextOf c.id⟩ (none, s₀) q).1 = some (.ok ()) := by
  have hs₀ := hs.congr h₀
  have hR₀ := hR.congr h₀
  have hc₀ : c ∈ s₀.courses := h₀.courses ▸ hc
  have hp₀ : s₀.pending c = true := (h₀.pending_eq c) ▸ hp
  rw [h₀.timetable.catalog] at hmin
  have hf := hR₀.fits he hs₀ hc₀ hp₀ hq
  have ha : s₀.timetable.assign ⟨c.id, s₀.nextOf c.id⟩ q =
      .ok (s₀.timetable.place ⟨c.id, s₀.nextOf c.id⟩ q) :=
    Timetable.assign_eq_ok.mpr ⟨Timetable.check_eq_none_iff.mpr ⟨c, hf⟩, rfl⟩
  -- the placement leaves a completion of the rest, which the search below finds
  have hs₁ := hs₀.assign hc₀ hp₀ ha
  have hR₁ := hR₀.place har hs₀ hq hmin
  have hfc := hR₁.forwardCheck he har hs₁
  have hlen₁ : (R.erase (c.id, q)).length < depth := by
    have hpos := List.length_pos_of_mem hq
    rw [List.length_erase_of_mem hq]
    omega
  have hok := ih _ _ hs₁ hR₁ hlen₁
  rw [h₀.nextOf c.id]
  simp only [attempt, ha, hfc, if_true]
  generalize solve depth _ = res at hok ⊢
  obtain ⟨r, s'⟩ := res
  dsimp only at hok
  subst hok
  rfl

/-- Trying placements among which one settles the step from every state that agrees with the
step's settles the step. -/
theorem foldl_attempt_ok (he : e.Indexed) {depth : Nat}
    (ih : ∀ s, Sound e s → Ends e s (solve depth s)) (hs : Sound e s) (hc : c ∈ s.courses)
    (hp : s.pending c = true) {q : Placement}
    (hq : ∀ s₀, s.Agrees s₀ → (attempt depth c ⟨c.id, s.nextOf c.id⟩ (none, s₀) q).1 = some (.ok ())) :
    ∀ (ps : List Placement), q ∈ ps → ∀ s₀, s.Agrees s₀ →
      (ps.foldl (attempt depth c ⟨c.id, s.nextOf c.id⟩) (none, s₀)).1 = some (.ok ())
  | p :: ps, hmem, s₀, h₀ => by
    rw [List.foldl_cons]
    by_cases hpq : p = q
    · subst hpq
      have h₁ := hq s₀ h₀
      generalize attempt depth c ⟨c.id, s.nextOf c.id⟩ (none, s₀) p = A at h₁ ⊢
      obtain ⟨o, s₁⟩ := A
      dsimp only at h₁
      subst h₁
      rw [foldl_attempt_some]
    · have hmem' : q ∈ ps := (List.mem_cons.mp hmem).resolve_left (Ne.symm hpq)
      have h₁ := attempt_ends he ih hs h₀ hc hp p
      generalize attempt depth c ⟨c.id, s.nextOf c.id⟩ (none, s₀) p = A at h₁ ⊢
      obtain ⟨o, s₁⟩ := A
      cases o with
      | none => exact foldl_attempt_ok he ih hs hc hp hq ps hmem' s₁ h₁
      | some r =>
        obtain ⟨rfl, -⟩ := h₁
        rw [foldl_attempt_some]

/-- **A run with a completion succeeds.** Searching from a sound state that has a completion,
with depth beyond its number of placements, succeeds. -/
theorem solve_complete (he : e.Indexed) (har : e.Arranged) :
    ∀ (depth : Nat) (s : Search) (R : List (String × Placement)), Sound e s → Completion s R →
      R.length < depth → (solve depth s).1 = .ok ()
  | 0, _, _, _, _, hlen => absurd hlen (Nat.not_lt_zero _)
  | depth + 1, s, R, hs, hR, hlen => by
    rw [solve_succ]
    have ha₁ := agrees_nodes s (s.nodes + 1)
    have hs₁ := hs.congr ha₁
    have hR₁ := hR.congr ha₁
    have hb : ¬ (s.budget > 0 ∧ ((s.nodes + 1 : Nat) : Int) > s.budget) := fun h ↦ by
      have := hs.budget
      omega
    have hd : ¬ ((s.nodes + 1) % 64 = 0 ∧ s.deadline (s.nodes + 1) = true) := fun h ↦ by
      simp [hs.untimed] at h
    dsimp only
    rw [if_neg hb, if_neg hd]
    cases hpick : ({ s with nodes := s.nodes + 1 } : Search).pick with
    | none => rfl
    | some co =>
      obtain ⟨c, o⟩ := co
      obtain ⟨hc, hp, rfl⟩ := pick_eq_some hpick
      -- the chosen course's placement of least week position is viable and settles the step
      obtain ⟨q, hq, hmin⟩ := hR₁.exists_min hs₁ hc hp
      have hqv := hR₁.mem_viable he har hs₁ hc hp hq
      have hok := foldl_attempt_ok he (solve_ends he depth) hs₁ hc hp
        (fun s₀ h₀ ↦ attempt_completes he har (solve_complete he har depth) hs₁ h₀ hR₁ hc hp hq
          hmin hlen) _ hqv _ (.refl _)
      cases hv : ({ s with nodes := s.nodes + 1 } : Search).viable c with
      | nil =>
        rw [hv] at hqv
        cases hqv
      | cons p ps =>
        rw [hv] at hok
        dsimp only
        generalize List.foldl _ _ _ = A at hok ⊢
        obtain ⟨out, s'⟩ := A
        dsimp only at hok
        subst hok
        rfl

end Search

end Timetabling
