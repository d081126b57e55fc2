import Timetabling.Proofs.Timetable.Restore
import Timetabling.Proofs.Repair.Edits
import Timetabling.Proofs.Search.Domain

/-! # Repair moves keep or place

A repair move aims at one session that is not placed. On a reachable timetable it either places
that session, keeping every session placed before (possibly at another placement), or reports
failure and leaves every placement as it was (`Timetable.applyMove_atomic`). Only a relocation
that may evict drops a session: the one blocker that could not move, which then carries the
reason `evicted`.

A failed move puts back what it displaced by assigning the old placements again, and each of those
assignments is accepted (`Timetable.restore_undone`): whatever it removed leaves a timetable within
the one it started from, which accepts the placements it lacks (`Reachable.check_eq_none_of_within`).

The one thing a failed move does not put back is the reason of its own session. A relocation
places that session before it moves the blockers out of the way, and placing a session drops its
reason; when a blocker cannot move, the session is removed again and its reason stays dropped
(`Timetable.relocation_drops_reason`). Every other reason is kept. -/

namespace Timetabling

namespace Timetable

/-! ## What a move may leave -/

/-- A move that failed: every session is placed as before and every reason is kept, but the reason
of `key`, the session the move was for, may be gone. -/
structure Undone (key : SessionKey) (t t' : Timetable) : Prop where
  catalog : t'.catalog = t.catalog
  placements : ∀ k : SessionKey, t'.placements[k]? = t.placements[k]?
  reasons : ∀ k : SessionKey, k ≠ key → t'.reason? k = t.reason? k
  reason_key : t'.reason? key = t.reason? key ∨ t'.reason? key = none

/-- A move that placed `key`: every session placed before is still placed, but one, which only an
evicting move may drop and which then carries the reason `evicted`. -/
structure Placed (evict : Bool) (key : SessionKey) (t t' : Timetable) : Prop where
  catalog : t'.catalog = t.catalog
  key_mem : key ∈ t'.placements
  kept : ∀ k ∈ t.placements, k ∉ t'.placements →
    evict = true ∧ t'.reason? k = some "evicted" ∧ ∀ k' ∈ t.placements, k' ∉ t'.placements → k' = k

/-- What a move for `key` leaves of `t`, with whether it reports success: a reachable timetable,
placing `key` on success and undone on failure. -/
structure Outcome (evict : Bool) (key : SessionKey) (t : Timetable) (r : Bool × Timetable) : Prop where
  reachable : r.2.Reachable
  undone : r.1 = false → Undone key t r.2
  placed : r.1 = true → Placed evict key t r.2

variable {evict : Bool} {key : SessionKey} {t t₁ t₂ : Timetable}

namespace Undone

theorem refl : Undone key t t := ⟨rfl, fun _ ↦ rfl, fun _ _ ↦ rfl, .inl rfl⟩

theorem trans (h₁ : Undone key t t₁) (h₂ : Undone key t₁ t₂) : Undone key t t₂ where
  catalog := h₂.catalog.trans h₁.catalog
  placements k := (h₂.placements k).trans (h₁.placements k)
  reasons k hk := (h₂.reasons k hk).trans (h₁.reasons k hk)
  reason_key := by
    rcases h₂.reason_key with h | h
    · rw [h]
      exact h₁.reason_key
    · exact .inr h

theorem mem_placements (h : Undone key t t₁) (k : SessionKey) :
    k ∈ t₁.placements ↔ k ∈ t.placements := by
  simp only [Std.HashMap.mem_iff_isSome_getElem?, h.placements k]

/-- A move that places its session after others that changed nothing. -/
theorem placed (h : Undone key t t₁) (h' : Placed evict key t₁ t₂) : Placed evict key t t₂ where
  catalog := h'.catalog.trans h.catalog
  key_mem := h'.key_mem
  kept k hk hk' := by
    obtain ⟨he, hr, huniq⟩ := h'.kept k ((h.mem_placements k).mpr hk) hk'
    exact ⟨he, hr, fun k' h₁ h₂ ↦ huniq k' ((h.mem_placements k').mpr h₁) h₂⟩

end Undone

/-- Placing `key` and keeping every session placed before. -/
theorem Placed.of_subset (hc : t₁.catalog = t.catalog) (hkey : key ∈ t₁.placements)
    (hsub : ∀ k ∈ t.placements, k ∈ t₁.placements) : Placed evict key t t₁ :=
  ⟨hc, hkey, fun k hk hk' ↦ absurd (hsub k hk) hk'⟩

/-- A move that evicts nothing is a move that may. -/
theorem Placed.evicting (h : Placed false key t t₁) : Placed evict key t t₁ :=
  ⟨h.catalog, h.key_mem, fun k hk hk' ↦ absurd (h.kept k hk hk').1 Bool.false_ne_true⟩

theorem mem_placements_of_assign {k : SessionKey} {p : Placement} (h : t.assign k p = .ok t₁)
    (k' : SessionKey) : k' ∈ t₁.placements ↔ k' = k ∨ k' ∈ t.placements := by
  obtain ⟨-, rfl⟩ := assign_eq_ok.mp h
  simp only [place_placements, Std.HashMap.mem_insert, beq_iff_eq]
  tauto

/-- A move that only assigns its session. -/
theorem Placed.of_assign {p : Placement} (ha : t.assign key p = .ok t₁) : Placed evict key t t₁ := by
  have hmem := mem_placements_of_assign ha
  obtain ⟨-, rfl⟩ := assign_eq_ok.mp ha
  exact .of_subset rfl ((hmem key).mpr (.inl rfl)) fun k hk ↦ (hmem k).mpr (.inr hk)

namespace Outcome

theorem unchanged (ht : t.Reachable) : Outcome evict key t (false, t) :=
  ⟨ht, fun _ ↦ .refl, fun h ↦ by cases h⟩

theorem failed (ht : t₁.Reachable) (h : Undone key t t₁) : Outcome evict key t (false, t₁) :=
  ⟨ht, fun _ ↦ h, fun h ↦ by cases h⟩

theorem succeeded (ht : t₁.Reachable) (h : Placed evict key t t₁) : Outcome evict key t (true, t₁) :=
  ⟨ht, fun h ↦ (by cases h), fun _ ↦ h⟩

/-- A move tried after others that changed nothing. -/
theorem of_undone {r : Bool × Timetable} (h : Undone key t t₁) (hr : Outcome evict key t₁ r) :
    Outcome evict key t r :=
  ⟨hr.reachable, fun hf ↦ h.trans (hr.undone hf), fun hs ↦ h.placed (hr.placed hs)⟩

end Outcome

/-- Trying moves one after another until one reports success leaves an outcome of the first, when
each, tried from any reachable timetable without `key`, leaves an outcome of it. -/
theorem foldl_outcome {α : Type} (f : Timetable → α → Bool × Timetable) (xs : List α)
    (hf : ∀ s, ∀ a ∈ xs, s.Reachable → key ∉ s.placements → Outcome evict key s (f s a))
    (hkey : key ∉ t.placements) (acc : Bool × Timetable) (hacc : Outcome evict key t acc) :
    Outcome evict key t (xs.foldl (fun acc a ↦ if acc.1 then acc else f acc.2 a) acc) := by
  refine List.foldlRecOn (motive := Outcome evict key t) xs _ hacc fun acc hacc a ha ↦ ?_
  cases hd : acc.1
  · -- nothing placed yet: the timetable so far is `t` undone, and the next move is tried on it
    have hu := hacc.undone hd
    simp only [Bool.false_eq_true, if_false]
    exact (hf acc.2 a ha hacc.reachable fun h ↦ hkey ((hu.mem_placements key).mp h)).of_undone hu
  · simpa only [if_true] using hacc

/-! ## Placing and removing, by membership -/

@[simp] theorem reason?_unassign (t : Timetable) (k k' : SessionKey) :
    (t.unassign k).2.reason? k' = t.reason? k' := by
  unfold unassign
  split <;> rfl

/-- A placed session of a coherent timetable has no reason. -/
theorem Coherent.reason?_eq_none {k : SessionKey} (ht : t.Coherent) (hk : k ∈ t.placements) :
    t.reason? k = none :=
  Std.HashMap.getElem?_eq_none fun h ↦ ht.reasons_unplaced h hk

theorem mem_of_getElem? {k : SessionKey} {p : Placement} (h : t.placements[k]? = some p) :
    k ∈ t.placements :=
  Std.HashMap.mem_iff_isSome_getElem?.mpr (by simp [h])

/-- Placing a session at the first placement accepted. -/
theorem assignFirst_eq_some {k : SessionKey} {ps : List Placement} (h : t.assignFirst k ps = some t₁) :
    ∃ p ∈ ps, t.assign k p = .ok t₁ := by
  obtain ⟨p, hp, hs⟩ := List.exists_of_findSome?_eq_some h
  refine ⟨p, hp, ?_⟩
  cases ha : t.assign k p with
  | ok t' =>
    simp only [ha, Except.toOption, Option.some.injEq] at hs
    rw [hs]
  | error c => simp [ha, Except.toOption] at hs

/-! ## Blockers -/

/-- Keeping the first of equal sessions keeps each session met once. -/
theorem dedup_foldl (found : List SessionKey) : ∀ acc : List SessionKey, acc.Nodup →
    (found.foldl (fun acc k ↦ if acc.contains k then acc else acc ++ [k]) acc).Nodup ∧
      ∀ k, k ∈ found.foldl (fun acc k ↦ if acc.contains k then acc else acc ++ [k]) acc ↔
        k ∈ acc ∨ k ∈ found := by
  induction found with
  | nil => simp
  | cons x found ih =>
    intro acc hacc
    rw [List.foldl_cons]
    split
    · rename_i hx
      have hx' : x ∈ acc := by simpa using hx
      obtain ⟨hn, hm⟩ := ih acc hacc
      refine ⟨hn, fun k ↦ ?_⟩
      rw [hm, List.mem_cons]
      constructor
      · rintro (h | h) <;> tauto
      · rintro (h | rfl | h) <;> tauto
    · rename_i hx
      have hx' : x ∉ acc := by simpa using hx
      have hnodup : (acc ++ [x]).Nodup := by
        simp only [List.nodup_append, hacc, List.nodup_singleton, List.mem_singleton, true_and]
        rintro a ha b rfl rfl
        exact hx' ha
      obtain ⟨hn, hm⟩ := ih (acc ++ [x]) hnodup
      refine ⟨hn, fun k ↦ ?_⟩
      rw [hm]
      simp only [List.mem_append, List.mem_cons]
      tauto

theorem blockers_nodup (t : Timetable) (key : SessionKey) (p : Placement) :
    (t.blockers key p).Nodup :=
  (dedup_foldl _ [] List.nodup_nil).1

theorem mem_of_slotOf {k : SessionKey} {s : String} (h : t.slotOf k = some s) : k ∈ t.placements := by
  simp only [slotOf, Option.map_eq_some_iff] at h
  obtain ⟨p, hp, -⟩ := h
  exact mem_of_getElem? hp

/-- The blockers of a coherent timetable are placed sessions: each holds the staff member, the room
or a student of the session in the slot. -/
theorem Coherent.mem_blockers (ht : t.Coherent) {b : SessionKey} {p : Placement}
    (hb : b ∈ t.blockers key p) : b ∈ t.placements := by
  unfold blockers at hb
  rw [(dedup_foldl _ [] List.nodup_nil).2] at hb
  simp only [List.not_mem_nil, false_or, List.mem_append, Option.mem_toList] at hb
  rcases hb with (h | h) | h
  · exact mem_of_slotOf ((ht.facultyAt_iff _ _ b).mp h).1
  · exact mem_of_getElem? ((ht.roomAt_iff _ _ b).mp h)
  · unfold studentOccupants sortKeys stableSort at h
    rw [(List.mergeSort_perm _ _).mem_iff, (dedup_foldl _ [] List.nodup_nil).2] at h
    simp only [List.not_mem_nil, false_or, List.mem_filterMap] at h
    obtain ⟨st, -, hst⟩ := h
    exact mem_of_slotOf ((ht.studentAt_iff _ _ b).mp hst).1

/-- A session not placed is not a blocker. -/
theorem Coherent.not_mem_blockers (ht : t.Coherent) {p : Placement} (hkey : key ∉ t.placements) :
    key ∉ t.blockers key p :=
  fun h ↦ hkey (ht.mem_blockers h)

/-! ## Putting displaced sessions back -/

/-- Putting back assigns every saved placement, in the order of the sessions' text, when assigning
them all in that order is accepted. -/
theorem restore_eq_of_assignAll {u : Timetable} {moved : List SessionKey}
    {saved : List (SessionKey × Placement)}
    (h : (moved.foldl (fun t k ↦ (t.unassign k).2) t).assignAll
      (stableSort (fun a b ↦ decide (a.1.text < b.1.text)) saved) = .ok u) :
    t.restore moved saved = u := by
  unfold restore
  dsimp only
  generalize moved.foldl (fun t k ↦ (t.unassign k).2) t = s at h ⊢
  generalize stableSort (fun a b ↦ decide (a.1.text < b.1.text)) saved = L at h ⊢
  induction L generalizing s with
  | nil =>
    cases h
    rfl
  | cons kp L ih =>
    rw [assignAll_cons] at h
    obtain ⟨s₁, h₁, hrest⟩ := Catalog.exists_of_bind_eq_ok h
    obtain ⟨k, p⟩ := kp
    rw [List.foldl_cons]
    dsimp only at h₁ ⊢
    rw [h₁]
    exact ih s₁ hrest

section Restore

variable {t₀ s : Timetable} {saved : List (SessionKey × Placement)}

/-- Putting back displaced sessions of a reachable `t₀` undoes a move for `key`: when the moved
timetable differs from `t₀` only at `key` and at the saved sessions, `key` is not placed and kept
its reason or lost it, and removing the moved sessions leaves none of the saved ones placed, then
every saved placement is accepted again and the result is `t₀` undone. -/
theorem restore_undone (h₀ : t₀.Reachable) (hs : s.Reachable) (hk₀ : key ∉ t₀.placements)
    (hsaved : ∀ kp ∈ saved, t₀.placements[kp.1]? = some kp.2) (hnodup : (saved.map (·.1)).Nodup)
    (hoff : SameExcept (key :: saved.map (·.1)) t₀ s) (hkey : key ∉ s.placements)
    (hreason : s.reason? key = t₀.reason? key ∨ s.reason? key = none)
    (moved : List SessionKey) (hmoved : moved ⊆ saved.map (·.1))
    (hplaced : ∀ b ∈ saved.map (·.1), b ∈ s.placements → b ∈ moved) :
    ∃ u, (moved.foldl (fun t k ↦ (t.unassign k).2) s).assignAll
        (stableSort (fun a b ↦ decide (a.1.text < b.1.text)) saved) = .ok u ∧
      s.restore moved saved = u ∧ u.Reachable ∧ Undone key t₀ u := by
  have hperm : (stableSort (fun a b ↦ decide (a.1.text < b.1.text)) saved).Perm saved :=
    List.mergeSort_perm _ _
  have hkeysaved : key ∉ saved.map (·.1) := fun h ↦ by
    obtain ⟨kp, hkp, rfl⟩ := List.mem_map.mp h
    exact hk₀ (mem_of_getElem? (hsaved kp hkp))
  -- removing the moved sessions leaves `key` and every saved session unplaced
  have hmem := mem_foldl_unassign moved s
  have hoff' : SameExcept (key :: saved.map (·.1)) t₀ (moved.foldl (fun t k ↦ (t.unassign k).2) s) :=
    hoff.trans (sameExcept_foldl_unassign moved (fun b hb ↦ List.mem_cons_of_mem _ (hmoved hb)) s)
  have hfree : ∀ b ∈ key :: saved.map (·.1), b ∉ (moved.foldl (fun t k ↦ (t.unassign k).2) s).placements := by
    intro b hb h
    obtain ⟨hnm, hbs⟩ := (hmem b).mp h
    rcases List.mem_cons.mp hb with rfl | hb
    · exact hkey hbs
    · exact hnm (hplaced b hb hbs)
  have hw : (moved.foldl (fun t k ↦ (t.unassign k).2) s).Within t₀ := by
    refine ⟨fun {k p} h ↦ ?_⟩
    by_cases hk : k ∈ key :: saved.map (·.1)
    · exact absurd (mem_of_getElem? h) (hfree k hk)
    · rwa [← hoff'.placements k hk]
  have hreach : (moved.foldl (fun t k ↦ (t.unassign k).2) s).Reachable :=
    (Edited.foldl (fun t k ↦ Edited.refl.unassign k) moved s).reachable hs
  obtain ⟨u, hu, hur, -, hsame, hput⟩ := h₀.assignAll_within _ hreach hoff'.catalog hw
    ((hperm.map _).nodup_iff.mpr hnodup)
    fun kp hkp ↦ ⟨hsaved kp (hperm.mem_iff.mp hkp),
      hfree kp.1 (List.mem_cons_of_mem _ (List.mem_map_of_mem (hperm.mem_iff.mp hkp)))⟩
  have hkeys : ∀ k, k ∈ (stableSort (fun a b ↦ decide (a.1.text < b.1.text)) saved).map (·.1) ↔
      k ∈ saved.map (·.1) := fun k ↦ (hperm.map _).mem_iff
  refine ⟨u, hu, restore_eq_of_assignAll hu, hur, hsame.catalog.trans hoff'.catalog,
    fun k ↦ ?_, fun k hk ↦ ?_, ?_⟩
  · by_cases hks : k ∈ saved.map (·.1)
    · -- a saved session is back at its placement in `t₀`
      obtain ⟨kp, hkp, rfl⟩ := List.mem_map.mp hks
      rw [hsaved kp hkp]
      exact hput kp (hperm.mem_iff.mpr hkp)
    · rw [hsame.placements k (mt (hkeys k).mp hks)]
      by_cases hkk : k = key
      · subst hkk
        rw [Std.HashMap.getElem?_eq_none (hfree k (List.mem_cons_self ..)),
          Std.HashMap.getElem?_eq_none hk₀]
      · exact hoff'.placements k (by simp [hkk, hks])
  · by_cases hks : k ∈ saved.map (·.1)
    · -- a saved session is placed in both, so has no reason in either
      obtain ⟨kp, hkp, rfl⟩ := List.mem_map.mp hks
      rw [hur.coherent.reason?_eq_none (mem_of_getElem? (hput kp (hperm.mem_iff.mpr hkp))),
        h₀.coherent.reason?_eq_none (mem_of_getElem? (hsaved kp hkp))]
    · rw [hsame.reasons k (mt (hkeys k).mp hks)]
      exact hoff'.reasons k (by simp [hk, hks])
  · rw [hsame.reasons key (mt (hkeys key).mp hkeysaved),
      (sameExcept_foldl_unassign moved (S := moved) (fun _ h ↦ h) s).reasons key
        fun h ↦ hkeysaved (hmoved h)]
    exact hreason

end Restore

/-! ## Moving blockers -/

/-- One step of `moveBlockers`: move the next blocker to the first other candidate accepted, as
long as every blocker so far has moved. -/
def moveBlockerStep (d : Domain) (pref : Preference) (acc : Timetable × List SessionKey × Bool)
    (bp : SessionKey × Placement) : Timetable × List SessionKey × Bool :=
  if !acc.2.2 then acc
  else match acc.1.assignFirst bp.1 ((acc.1.prefer pref (d.forKey bp.1)).filter (· != bp.2)) with
    | some t => (t, acc.2.1 ++ [bp.1], true)
    | none => (acc.1, acc.2.1, false)

theorem moveBlockers_eq (d : Domain) (pref : Preference) (saved : List (SessionKey × Placement))
    (t : Timetable) : moveBlockers d pref saved t = saved.foldl (moveBlockerStep d pref) (t, [], true) :=
  rfl

/-- Once a blocker could not move, nothing more is tried. -/
theorem foldl_moveBlockerStep_stuck (d : Domain) (pref : Preference) (t : Timetable)
    (moved : List SessionKey) :
    ∀ saved : List (SessionKey × Placement),
      saved.foldl (moveBlockerStep d pref) (t, moved, false) = (t, moved, false)
  | [] => rfl
  | _ :: saved => foldl_moveBlockerStep_stuck d pref t moved saved

/-- Moving blockers moves a first part of them, each to a placement of its own, changes nothing
else, and reports success exactly when all have moved. -/
theorem foldl_moveBlockerStep (d : Domain) (pref : Preference) :
    ∀ (saved : List (SessionKey × Placement)) (t : Timetable) (moved : List SessionKey),
      ∃ m, (saved.foldl (moveBlockerStep d pref) (t, moved, true)).2.1 = moved ++ m ∧
        m <+: saved.map (·.1) ∧
        SameExcept (saved.map (·.1)) t (saved.foldl (moveBlockerStep d pref) (t, moved, true)).1 ∧
        (∀ k, k ∈ (saved.foldl (moveBlockerStep d pref) (t, moved, true)).1.placements ↔
          k ∈ t.placements ∨ k ∈ m) ∧
        ((saved.foldl (moveBlockerStep d pref) (t, moved, true)).2.2 = true ↔ m = saved.map (·.1))
  | [], t, moved => ⟨[], by simp, List.nil_prefix, .refl, by simp, by simp⟩
  | (b, old) :: saved, t, moved => by
    rw [List.foldl_cons]
    simp only [moveBlockerStep, Bool.not_true, Bool.false_eq_true, if_false]
    split
    · -- the blocker moved: the rest is moved from there
      rename_i t' h
      obtain ⟨q, -, ha⟩ := assignFirst_eq_some h
      obtain ⟨m, hm, hpre, hsame, hmem, hok⟩ := foldl_moveBlockerStep d pref saved t' (moved ++ [b])
      refine ⟨b :: m, by simp [hm], ?_, ?_, fun k ↦ ?_, ?_⟩
      · simpa using hpre
      · exact (sameExcept_assign (List.mem_cons_self ..) ha).trans
          (hsame.mono fun _ h ↦ List.mem_cons_of_mem _ h)
      · rw [hmem, mem_placements_of_assign ha, List.mem_cons]
        tauto
      · rw [hok]
        simp
    · -- the blocker could not move: the run stops here
      refine ⟨[], by rw [foldl_moveBlockerStep_stuck]; simp, List.nil_prefix, ?_, ?_, ?_⟩
      · rw [foldl_moveBlockerStep_stuck]
        exact .refl
      · rw [foldl_moveBlockerStep_stuck]
        simp
      · rw [foldl_moveBlockerStep_stuck]
        simp

/-! ## Relocating blockers -/

/-- One candidate of a relocation, tried from the timetable so far. -/
def relocateAt (t : Timetable) (d : Domain) (key : SessionKey) (pref : Preference) (evict : Bool)
    (p : Placement) : Bool × Timetable :=
  let bs := t.blockers key p
  if bs.isEmpty then
    match t.assign key p with
    | .ok t => (true, t)
    | .error _ => (false, t)
  else if bs.length > maxBlockers then (false, t)
  else
    let saved := bs.map fun b => (b, (t.lookup b).getD default)
    let freed := bs.foldl (fun t b => (t.unassign b).2) t
    match freed.assign key p with
    | .error _ => (false, freed.restore [] saved)
    | .ok placed =>
      let r := moveBlockers d pref saved placed
      if r.2.2 then (true, r.1)
      else if evict && bs.length == 1 then (true, r.1.markUnscheduled (bs.headD default) "evicted")
      else (false, ((r.1.unassign key).2).restore r.2.1 saved)

theorem relocate_eq (t : Timetable) (d : Domain) (key : SessionKey) (pref : Preference)
    (evict : Bool) :
    t.relocate d key pref evict =
      (d.forKey key).foldl (fun acc p ↦ if acc.1 then acc else acc.2.relocateAt d key pref evict p)
        (false, t) :=
  rfl

section Relocate

variable {s : Timetable}

/-- The blockers of a candidate, saved with their placements. -/
theorem saved_blockers (hs : s.Coherent) (key : SessionKey) (p : Placement) :
    ∀ kp ∈ (s.blockers key p).map (fun b ↦ (b, (s.lookup b).getD default)),
      s.placements[kp.1]? = some kp.2 := by
  intro kp hkp
  obtain ⟨b, hb, rfl⟩ := List.mem_map.mp hkp
  obtain ⟨q, hq⟩ := Option.isSome_iff_exists.mp
    (Std.HashMap.mem_iff_isSome_getElem?.mp (hs.mem_blockers hb))
  simp [lookup, hq]

/-- Trying one candidate of a relocation leaves an outcome of the timetable it is tried on. -/
theorem relocateAt_outcome (hs : s.Reachable) (hkey : key ∉ s.placements) (d : Domain)
    (pref : Preference) (evict : Bool) (p : Placement) :
    Outcome evict key s (s.relocateAt d key pref evict p) := by
  have hco := hs.coherent
  have hnodup := blockers_nodup s key p
  have hkeyb := hco.not_mem_blockers (p := p) hkey
  have hsaved := saved_blockers hco key p
  unfold relocateAt
  dsimp only
  split
  · -- nothing blocks the candidate: the session is placed there, or nothing changes
    split
    · rename_i t' ha
      exact .succeeded (hs.assign ha) (.of_assign ha)
    · exact .unchanged hs
  split
  · exact .unchanged hs
  have hkeys : ((s.blockers key p).map fun b ↦ (b, (s.lookup b).getD default)).map (·.1) =
      s.blockers key p := by
    simp [List.map_map, Function.comp_def]
  rw [← hkeys] at hnodup hkeyb
  generalize (s.blockers key p).map (fun b ↦ (b, (s.lookup b).getD default)) = saved at *
  rw [← hkeys]
  -- the blockers are removed; nothing else changes
  have hfreedE : Edited s ((saved.map (·.1)).foldl (fun t b ↦ (t.unassign b).2) s) :=
    Edited.foldl (fun t b ↦ Edited.refl.unassign b) _ s
  have hfreed := sameExcept_foldl_unassign (saved.map (·.1)) (fun _ h ↦ h) s
  have hfreedmem := mem_foldl_unassign (saved.map (·.1)) s
  split
  · -- the session is refused even with the blockers out: they are put back
    obtain ⟨u, -, hrest, hur, hu⟩ := restore_undone hs (hfreedE.reachable hs) hkey
      hsaved hnodup (hfreed.mono (List.subset_cons_self ..))
      (fun h ↦ hkey ((hfreedmem key).mp h).2) (.inl (hfreed.reasons key hkeyb)) []
      (List.nil_subset _) (fun b hb h ↦ absurd hb ((hfreedmem b).mp h).1)
    rw [hrest]
    exact .failed hur hu
  rename_i placed ha
  have hplacedE := hfreedE.assign ha
  have hplaced := mem_placements_of_assign ha
  -- the blockers move to other candidates, a first part of them or all
  obtain ⟨m, hm, hpre, hsame, hmem, hok⟩ := foldl_moveBlockerStep d pref saved placed []
  rw [← moveBlockers_eq] at hm hsame hmem hok
  rw [List.nil_append] at hm
  have hmovedE : Edited s (moveBlockers d pref saved placed).1 :=
    hplacedE.trans (moveBlockers_edited d pref saved placed)
  -- a session of `s` other than a blocker is still placed after the session and the moves
  have hothers : ∀ k ∈ s.placements, k ∉ saved.map (·.1) → k ∈ (moveBlockers d pref saved placed).1.placements := by
    intro k hk hkb
    exact (hmem k).mpr (.inl ((hplaced k).mpr (.inr ((hfreedmem k).mpr ⟨hkb, hk⟩))))
  split
  · -- every blocker moved
    rename_i hdone
    have hall : m = saved.map (·.1) := hok.mp hdone
    refine .succeeded (hmovedE.reachable hs) (.of_subset hmovedE.catalog_eq
      ((hmem key).mpr (.inl ((hplaced key).mpr (.inl rfl)))) fun k hk ↦ ?_)
    by_cases hkb : k ∈ saved.map (·.1)
    · exact (hmem k).mpr (.inr (hall ▸ hkb))
    · exact hothers k hk hkb
  rename_i hnot
  have hmsub : m ⊆ saved.map (·.1) := hpre.subset
  -- a blocker still placed after the moves is one that moved
  have hstay : ∀ b ∈ saved.map (·.1), b ∈ (moveBlockers d pref saved placed).1.placements → b ∈ m := by
    intro b hb h
    rcases (hmem b).mp h with h | h
    · rcases (hplaced b).mp h with rfl | h
      · exact absurd hb hkeyb
      · exact absurd hb ((hfreedmem b).mp h).1
    · exact h
  split
  · -- the one blocker that could not move is evicted
    rename_i hev
    simp only [Bool.and_eq_true, beq_iff_eq] at hev
    obtain ⟨rfl, hlen⟩ := hev
    obtain ⟨b, hb⟩ := List.length_eq_one_iff.mp hlen
    rw [hb] at hpre hok hstay hothers ⊢
    -- had the blocker moved, all would have
    have hm0 : m = [] := by
      rcases List.prefix_cons_iff.mp hpre with h | ⟨m', rfl, hm'⟩
      · exact h
      · rw [List.prefix_nil.mp hm'] at hok
        exact absurd (hok.mpr rfl) hnot
    have hbout : b ∉ (moveBlockers d pref saved placed).1.placements := fun h ↦ by
      simpa [hm0] using hstay b (List.mem_singleton_self b) h
    refine .succeeded ((hmovedE.markUnscheduled _ _).reachable hs)
      ⟨by simp [hmovedE.catalog_eq], by
        rw [markUnscheduled_placements]
        exact (hmem key).mpr (.inl ((hplaced key).mpr (.inl rfl))), fun k hk hk' ↦ ?_⟩
    -- only the blocker can be missing, and it carries its reason
    have hkb : ∀ k ∈ s.placements, k ∉ ((moveBlockers d pref saved placed).1.markUnscheduled
        b "evicted").placements → k = b := by
      intro k hk hk'
      rw [markUnscheduled_placements] at hk'
      by_contra hne
      exact hk' (hothers k hk (by simpa using hne))
    obtain rfl := hkb k hk hk'
    refine ⟨rfl, ?_, fun k' hk'₁ hk'₂ ↦ hkb k' hk'₁ hk'₂⟩
    simp [List.headD, reason?_markUnscheduled, hbout]
  · -- the moves are undone and the blockers put back
    obtain ⟨u, -, hrest, hur, hu⟩ := restore_undone (s := ((moveBlockers d pref saved placed).1.unassign key).2)
      hs ((hmovedE.unassign key).reachable hs) hkey hsaved hnodup
      ((hfreed.mono (List.subset_cons_self ..)).trans
        (((sameExcept_assign (List.mem_cons_self ..) ha).trans
          (hsame.mono (List.subset_cons_self ..))).trans
          (sameExcept_unassign (List.mem_cons_self ..) _)))
      (by simp [mem_unassign_placements])
      (.inr (by
        rw [reason?_unassign, hsame.reasons key hkeyb]
        obtain ⟨-, rfl⟩ := assign_eq_ok.mp ha
        simp [reason?]))
      m hmsub
      (fun b hb h ↦ hstay b hb ((mem_unassign_placements _ _ _).mp h).2)
    rw [hm, hrest]
    exact .failed hur hu

/-- A relocation leaves an outcome of the timetable it starts from. -/
theorem relocate_outcome (hs : s.Reachable) (hkey : key ∉ s.placements) (d : Domain)
    (pref : Preference) (evict : Bool) : Outcome evict key s (s.relocate d key pref evict) := by
  rw [relocate_eq]
  exact foldl_outcome _ _ (fun s' p _ hs' hk' ↦ relocateAt_outcome hs' hk' d pref evict p) hkey _
    (.unchanged hs)

end Relocate

/-! ## Swapping slots -/

section Swap

variable {s : Timetable}

/-- A move that puts the moved sessions back leaves the timetable undone. -/
theorem Outcome.evicting {r : Bool × Timetable} (h : Outcome false key t r) : Outcome evict key t r :=
  ⟨h.reachable, h.undone, fun hs ↦ (h.placed hs).evicting⟩

/-- Exchanging the slots of a blocker and a partner, then placing the session, leaves an outcome
of the timetable it is tried on, and evicts nothing. -/
theorem trySwap_outcome (hs : s.Reachable) (hkey : key ∉ s.placements)
    {blocker partner : SessionKey} {blockerAt partnerAt : Placement}
    (hb : s.placements[blocker]? = some blockerAt) (hp : s.placements[partner]? = some partnerAt)
    (hne : blocker ≠ partner) (d : Domain) (p : Placement) :
    Outcome false key s (s.trySwap d key p blocker blockerAt partner partnerAt) := by
  have hsaved : ∀ kp ∈ [(blocker, blockerAt), (partner, partnerAt)], s.placements[kp.1]? = some kp.2 := by
    simp [hb, hp]
  have hnodup : ([(blocker, blockerAt), (partner, partnerAt)].map (·.1)).Nodup := by simp [hne]
  have hbmem := mem_of_getElem? hb
  have hpmem := mem_of_getElem? hp
  -- the blocker and the partner are removed; nothing else changes
  have hfreedE : Edited s ((s.unassign blocker).2.unassign partner).2 :=
    (Edited.refl.unassign blocker).unassign partner
  have hfreed : SameExcept (key :: [(blocker, blockerAt), (partner, partnerAt)].map (·.1)) s
      ((s.unassign blocker).2.unassign partner).2 :=
    (sameExcept_unassign (by simp) s).trans (sameExcept_unassign (by simp) _)
  have hfreedmem : ∀ k, k ∈ ((s.unassign blocker).2.unassign partner).2.placements ↔
      partner ≠ k ∧ blocker ≠ k ∧ k ∈ s.placements := fun k ↦ by
    rw [mem_unassign_placements, mem_unassign_placements]
  have hkb : key ≠ blocker := fun h ↦ hkey (h ▸ hbmem)
  have hkp : key ≠ partner := fun h ↦ hkey (h ▸ hpmem)
  have hkr : ((s.unassign blocker).2.unassign partner).2.reason? key = s.reason? key := by simp
  unfold trySwap
  dsimp only
  split
  · -- the blocker fits nowhere in the partner's slot: both are put back
    obtain ⟨u, -, hrest, hur, hu⟩ := restore_undone hs (hfreedE.reachable hs) hkey
      hsaved hnodup hfreed (fun h ↦ hkey ((hfreedmem key).mp h).2.2) (.inl hkr) []
      (List.nil_subset _) fun b hb h ↦ by
        simp only [List.map_cons, List.map_nil, List.mem_cons, List.not_mem_nil, or_false] at hb
        rcases hb with rfl | rfl <;> simp [hfreedmem] at h
    rw [hrest]
    exact .failed hur hu
  rename_i t₁ h₁
  obtain ⟨q₁, -, ha₁⟩ := assignFirst_eq_some h₁
  have h₁E := hfreedE.assign ha₁
  have h₁mem := mem_placements_of_assign ha₁
  have h₁same := hfreed.trans (sameExcept_assign (by simp) ha₁)
  have h₁r : t₁.reason? key = s.reason? key :=
    ((sameExcept_assign (S := [blocker]) (by simp) ha₁).reasons key (by simp [hkb])).trans hkr
  split
  · -- the partner fits nowhere in the blocker's slot: the blocker is taken back, both put back
    obtain ⟨u, -, hrest, hur, hu⟩ := restore_undone hs (h₁E.reachable hs)
      hkey hsaved hnodup h₁same (by simp [h₁mem, hfreedmem, hkb, hkey]) (.inl h₁r) [blocker] (by simp)
      fun b hb h ↦ by
        simp only [List.map_cons, List.map_nil, List.mem_cons, List.not_mem_nil, or_false] at hb
        rcases hb with rfl | rfl
        · simp
        · simp [h₁mem, hfreedmem, hne.symm] at h
    rw [hrest]
    exact .failed hur hu
  rename_i t₂ h₂
  obtain ⟨q₂, -, ha₂⟩ := assignFirst_eq_some h₂
  have h₂E := h₁E.assign ha₂
  have h₂mem := mem_placements_of_assign ha₂
  split
  · -- the session is placed: every session of `s` is placed again, the two exchanged
    rename_i t₃ ha₃
    have h₃mem := mem_placements_of_assign ha₃
    refine .succeeded ((h₂E.assign ha₃).reachable hs)
      (.of_subset (h₂E.assign ha₃).catalog_eq ((h₃mem key).mpr (.inl rfl)) fun k hk ↦ ?_)
    rw [h₃mem, h₂mem, h₁mem, hfreedmem]
    by_cases hkp' : partner = k
    · exact .inr (.inl hkp'.symm)
    · by_cases hkb' : blocker = k
      · exact .inr (.inr (.inl hkb'.symm))
      · exact .inr (.inr (.inr ⟨hkp', hkb', hk⟩))
  · -- the session is refused: both are taken back and put back
    have h₂same := h₁same.trans (sameExcept_assign (by simp) ha₂)
    have h₂r : t₂.reason? key = s.reason? key :=
      ((sameExcept_assign (S := [partner]) (by simp) ha₂).reasons key (by simp [hkp])).trans h₁r
    obtain ⟨u, -, hrest, hur, hu⟩ := restore_undone hs
      (h₂E.reachable hs) hkey hsaved hnodup h₂same (by simp [h₂mem, h₁mem, hfreedmem, hkb, hkp, hkey])
      (.inl h₂r) [blocker, partner] (by simp) fun b hb _ ↦ by simpa using hb
    rw [hrest]
    exact .failed hur hu

/-- One candidate of a swap, tried from the timetable so far. -/
def swapAt (t : Timetable) (d : Domain) (key : SessionKey) (p : Placement) : Bool × Timetable :=
  match t.blockers key p with
  | [blocker] =>
    let blockerAt := (t.lookup blocker).getD default
    let r := t.keys.foldl (fun (acc : Bool × Timetable × Nat) partner =>
      if acc.1 || acc.2.2 ≥ swapPartnerScan then acc
      else
        let partnerAt := (acc.2.1.lookup partner).getD default
        if partner == blocker || partnerAt.slot == blockerAt.slot then acc
        else
          let r := acc.2.1.trySwap d key p blocker blockerAt partner partnerAt
          (r.1, r.2, acc.2.2 + 1)) (false, t, 0)
    (r.1, r.2.1)
  | _ => (false, t)

theorem swap_eq (t : Timetable) (d : Domain) (key : SessionKey) :
    t.swap d key =
      (d.forKey key).foldl (fun acc p ↦ if acc.1 then acc else acc.2.swapAt d key p) (false, t) :=
  rfl

theorem mem_keys {k : SessionKey} (h : k ∈ t.keys) : k ∈ t.placements := by
  unfold keys sortKeys stableSort at h
  rwa [(List.mergeSort_perm _ _).mem_iff, Std.HashMap.mem_keys] at h

/-- Trying one candidate of a swap leaves an outcome of the timetable it is tried on: with a
single blocker, partners are tried one after another, each from a timetable undone. -/
theorem swapAt_outcome (hs : s.Reachable) (hkey : key ∉ s.placements) (d : Domain)
    (p : Placement) : Outcome false key s (s.swapAt d key p) := by
  unfold swapAt
  split
  · rename_i blocker hbl
    have hbl' : blocker ∈ s.blockers key p := by simp [hbl]
    obtain ⟨blockerAt, hb⟩ := Option.isSome_iff_exists.mp (Std.HashMap.mem_iff_isSome_getElem?.mp
      (hs.coherent.mem_blockers hbl'))
    have hbAt : (s.lookup blocker).getD default = blockerAt := by simp [lookup, hb]
    dsimp only
    rw [hbAt]
    refine List.foldlRecOn (motive := fun acc : Bool × Timetable × Nat ↦
      Outcome false key s (acc.1, acc.2.1)) _ _ (.unchanged hs) fun acc hacc partner hpk ↦ ?_
    split
    · exact hacc
    rename_i hgo
    have hd : acc.1 = false := by
      simp only [Bool.or_eq_true, decide_eq_true_eq, not_or] at hgo
      simpa using hgo.1
    split
    · exact hacc
    rename_i hpart
    simp only [Bool.or_eq_true, beq_iff_eq, not_or] at hpart
    -- the partner is placed in `s`, so in the timetable so far, where `s` is undone
    have hu := hacc.undone hd
    obtain ⟨partnerAt, hp⟩ := Option.isSome_iff_exists.mp
      (Std.HashMap.mem_iff_isSome_getElem?.mp (mem_keys hpk))
    have hpAt : (acc.2.1.lookup partner).getD default = partnerAt := by
      simp [lookup, hu.placements, hp]
    rw [hpAt]
    exact (trySwap_outcome hacc.reachable (fun h ↦ hkey ((hu.mem_placements key).mp h))
      (by rw [hu.placements]; exact hb) (by rw [hu.placements]; exact hp) (Ne.symm hpart.1) d p).of_undone
      hu
  · exact .unchanged hs

/-- A swap leaves an outcome of the timetable it starts from, and evicts nothing. -/
theorem swap_outcome (hs : s.Reachable) (hkey : key ∉ s.placements) (d : Domain) :
    Outcome false key s (s.swap d key) := by
  rw [swap_eq]
  exact foldl_outcome _ _ (fun s' p _ hs' hk' ↦ swapAt_outcome hs' hk' d p) hkey _ (.unchanged hs)

end Swap

/-! ## Every move -/

/-- Every move for a session that is not placed leaves an outcome of a reachable timetable; only
relocating blockers may evict. -/
theorem applyMove_outcome (ht : t.Reachable) (hkey : key ∉ t.placements) (d : Domain) (m : Move) :
    Outcome (m == .relocateBlocker) key t (t.applyMove d m key) := by
  cases m with
  | placeDirect =>
    unfold applyMove
    dsimp only
    split
    · rename_i t' h
      obtain ⟨p, -, ha⟩ := assignFirst_eq_some h
      exact .succeeded (ht.assign ha) (.of_assign ha)
    · exact .unchanged ht
  | relocateBlocker => exact relocate_outcome ht hkey d .domain true
  | swapSlots => exact (swap_outcome ht hkey d).evicting
  | rebalanceLoad => exact relocate_outcome ht hkey d .leastLoaded false

/-- A repair move for a session that is not placed, on a reachable timetable, either fails and
leaves every session placed as it was and every reason as it was, but possibly the reason of the
session itself, which may be gone; or succeeds, and then the session is placed and every session
placed before still is, possibly elsewhere, but at most one, which only relocating blockers
drops, and which then carries the reason `evicted`. -/
theorem applyMove_atomic {t : Timetable} (ht : t.Reachable) (d : Domain) (m : Move)
    {key : SessionKey} (hkey : key ∉ t.placements) :
    ((t.applyMove d m key).1 = false →
      (∀ k : SessionKey, (t.applyMove d m key).2.placements[k]? = t.placements[k]?) ∧
      (∀ k, k ≠ key → (t.applyMove d m key).2.reason? k = t.reason? k) ∧
      ((t.applyMove d m key).2.reason? key = t.reason? key ∨
        (t.applyMove d m key).2.reason? key = none)) ∧
    ((t.applyMove d m key).1 = true →
      key ∈ (t.applyMove d m key).2.placements ∧
      ∀ k ∈ t.placements, k ∉ (t.applyMove d m key).2.placements →
        m = .relocateBlocker ∧ (t.applyMove d m key).2.reason? k = some "evicted" ∧
          ∀ k' ∈ t.placements, k' ∉ (t.applyMove d m key).2.placements → k' = k) := by
  have h := applyMove_outcome ht hkey d m
  refine ⟨fun hf ↦ ?_, fun hs ↦ ?_⟩
  · have hu := h.undone hf
    exact ⟨hu.placements, hu.reasons, hu.reason_key⟩
  · have hp := h.placed hs
    refine ⟨hp.key_mem, fun k hk hk' ↦ ?_⟩
    obtain ⟨hev, hr, huniq⟩ := hp.kept k hk hk'
    exact ⟨beq_iff_eq.mp hev, hr, huniq⟩

/-- On the timetable of `singleRecords` whose first session is placed, relocating the blocker of
the second session, which the first one holds off its only room and slot. -/
theorem applyMove_atomic_singleRecords :
    ∃ e, Catalog.build Domain.singleRecords = .ok e ∧
      let t := (empty e).place ⟨"c", 0⟩ ⟨"s", "r"⟩
      t.Reachable ∧ (⟨"c", 0⟩ : SessionKey) ∈ t.placements ∧ (⟨"c", 1⟩ : SessionKey) ∉ t.placements ∧
      ((t.applyMove (Domain.build e) .relocateBlocker ⟨"c", 1⟩).1 = false →
        (∀ k : SessionKey,
          (t.applyMove (Domain.build e) .relocateBlocker ⟨"c", 1⟩).2.placements[k]? = t.placements[k]?) ∧
        (∀ k, k ≠ ⟨"c", 1⟩ →
          (t.applyMove (Domain.build e) .relocateBlocker ⟨"c", 1⟩).2.reason? k = t.reason? k) ∧
        ((t.applyMove (Domain.build e) .relocateBlocker ⟨"c", 1⟩).2.reason? ⟨"c", 1⟩ =
            t.reason? ⟨"c", 1⟩ ∨
          (t.applyMove (Domain.build e) .relocateBlocker ⟨"c", 1⟩).2.reason? ⟨"c", 1⟩ = none)) ∧
      ((t.applyMove (Domain.build e) .relocateBlocker ⟨"c", 1⟩).1 = true →
        ⟨"c", 1⟩ ∈ (t.applyMove (Domain.build e) .relocateBlocker ⟨"c", 1⟩).2.placements ∧
        ∀ k ∈ t.placements, k ∉ (t.applyMove (Domain.build e) .relocateBlocker ⟨"c", 1⟩).2.placements →
          Move.relocateBlocker = .relocateBlocker ∧
          (t.applyMove (Domain.build e) .relocateBlocker ⟨"c", 1⟩).2.reason? k = some "evicted" ∧
          ∀ k' ∈ t.placements,
            k' ∉ (t.applyMove (Domain.build e) .relocateBlocker ⟨"c", 1⟩).2.placements → k' = k) := by
  obtain ⟨e, hb, -, hcheck⟩ := Domain.build_singleRecords
  have ht : ((empty e).place ⟨"c", 0⟩ ⟨"s", "r"⟩).Reachable :=
    .assign (.empty (Catalog.indexed_of_build hb)) (assign_eq_ok.mpr ⟨hcheck, rfl⟩)
  have hfirst : (⟨"c", 0⟩ : SessionKey) ∈ ((empty e).place ⟨"c", 0⟩ ⟨"s", "r"⟩).placements := by
    simp [place]
  have hkey : (⟨"c", 1⟩ : SessionKey) ∉ ((empty e).place ⟨"c", 0⟩ ⟨"s", "r"⟩).placements := by
    simp [place, empty]
  exact ⟨e, hb, ht, hfirst, hkey, applyMove_atomic ht (Domain.build e) .relocateBlocker hkey⟩

/-! ## A failed relocation drops the session's reason -/

theorem mem_prefer {pref : Preference} {ps : List Placement} {q : Placement} :
    q ∈ t.prefer pref ps ↔ q ∈ ps := by
  cases pref with
  | domain => rfl
  | leastLoaded => exact (List.mergeSort_perm _ _).mem_iff

/-- Putting displaced sessions back changes nothing but them. -/
theorem sameExcept_restore (t : Timetable) (moved : List SessionKey)
    (saved : List (SessionKey × Placement)) :
    SameExcept (moved ++ saved.map (·.1)) t (t.restore moved saved) := by
  unfold restore
  dsimp only
  refine (sameExcept_foldl_unassign moved (List.subset_append_left _ _) t).trans ?_
  generalize moved.foldl (fun t k ↦ (t.unassign k).2) t = s
  refine List.foldlRecOn (motive := SameExcept (moved ++ saved.map (·.1)) s) _ _ .refl
    fun u hu kp hkp ↦ ?_
  obtain ⟨k, p⟩ := kp
  have hk : k ∈ moved ++ saved.map (·.1) :=
    List.mem_append_right _ (List.mem_map_of_mem ((List.mergeSort_perm _ _).mem_iff.mp hkp))
  dsimp only
  split
  · rename_i u' ha
    exact hu.trans (sameExcept_assign hk ha)
  · exact hu

/-- A relocation without eviction that places its session where a single blocker stood, and then
finds no other candidate for the blocker, reports failure, and the session's reason is gone:
placing the session dropped it, and taking the session out again does not give it back. -/
theorem relocateAt_drops_reason {s : Timetable} (d : Domain) (pref : Preference) {p : Placement}
    {b : SessionKey} (hbl : s.blockers key p = [b]) (hkb : key ≠ b)
    (hfit : (s.unassign b).2.check key p = none) (hstuck : ∀ q ∈ d.forKey b, s.lookup b = some q) :
    (s.relocateAt d key pref false p).1 = false ∧
      (s.relocateAt d key pref false p).2.reason? key = none := by
  have ha : (s.unassign b).2.assign key p = .ok ((s.unassign b).2.place key p) :=
    assign_eq_ok.mpr ⟨hfit, rfl⟩
  -- the blocker's other candidates are none: its only candidate is where it stands
  have hmove : moveBlockers d pref [(b, (s.lookup b).getD default)] ((s.unassign b).2.place key p) =
      ((s.unassign b).2.place key p, [], false) := by
    have hnone : ((((s.unassign b).2.place key p).prefer pref (d.forKey b)).filter
        (· != (s.lookup b).getD default)) = [] := by
      rw [List.filter_eq_nil_iff]
      intro q hq
      simp [hstuck q (mem_prefer.mp hq)]
    rw [moveBlockers_eq, List.foldl_cons, List.foldl_nil]
    simp [moveBlockerStep, hnone, assignFirst]
  unfold relocateAt
  simp only [hbl, List.isEmpty_cons, Bool.false_eq_true, if_false, List.length_singleton,
    maxBlockers, List.map_cons, List.map_nil, List.foldl_cons, List.foldl_nil, ha, hmove]
  rw [if_neg (by decide), if_neg (by decide)]
  refine ⟨rfl, ?_⟩
  rw [(sameExcept_restore _ [] _).reasons key (by simp [hkb])]
  simp [reason?]

/-- On the timetable of `singleRecords` with its first session placed and its second marked with a
reason, rebalancing load for the second session fails, and the session's reason is gone: the move
placed it where the first stood, found nowhere else for the first, and took it out again. -/
theorem relocation_drops_reason :
    ∃ (e : Catalog) (t : Timetable), Catalog.build Domain.singleRecords = .ok e ∧ t.Reachable ∧
      (⟨"c", 1⟩ : SessionKey) ∉ t.placements ∧ t.reason? ⟨"c", 1⟩ = some "custom" ∧
      (t.applyMove (Domain.build e) .rebalanceLoad ⟨"c", 1⟩).1 = false ∧
      (t.applyMove (Domain.build e) .rebalanceLoad ⟨"c", 1⟩).2.reason? ⟨"c", 1⟩ = none := by
  cases hb : Catalog.build Domain.singleRecords with
  | error err =>
    simp [Domain.singleRecords, Catalog.build, Catalog.indexFaculty, Catalog.indexSlots,
      Catalog.indexRooms, Catalog.indexCourses, Catalog.courseStudents, stableSort, dedupStrings,
      sortStrings] at hb
    cases hb
  | ok e =>
    have he := Catalog.indexed_of_build hb
    -- the records' catalog: the first session fits the empty timetable, each session's one
    -- candidate is the one slot and room, and with the first session there the second is
    -- blocked by it alone and fits once it is taken out
    obtain ⟨hcheck, hcand, hbl, hfit⟩ : (empty e).check ⟨"c", 0⟩ ⟨"s", "r"⟩ = none ∧
        (∀ i : Int, (Domain.build e).forKey ⟨"c", i⟩ = [⟨"s", "r"⟩]) ∧
        (((empty e).place ⟨"c", 0⟩ ⟨"s", "r"⟩).markUnscheduled ⟨"c", 1⟩ "custom").blockers
          ⟨"c", 1⟩ ⟨"s", "r"⟩ = [⟨"c", 0⟩] ∧
        ((((empty e).place ⟨"c", 0⟩ ⟨"s", "r"⟩).markUnscheduled ⟨"c", 1⟩ "custom").unassign
          ⟨"c", 0⟩).2.check ⟨"c", 1⟩ ⟨"s", "r"⟩ = none := by
      simp [Domain.singleRecords, Catalog.build, Catalog.indexFaculty, Catalog.indexSlots,
        Catalog.indexRooms, Catalog.indexCourses, Catalog.courseStudents, stableSort, dedupStrings,
        sortStrings] at hb
      cases hb
      refine ⟨?_, fun i ↦ ?_, ?_, ?_⟩
      · simp [check, empty, Catalog.course?, Catalog.room?, Catalog.slot?, Catalog.roomSuits,
          Catalog.facultyAvailable, Catalog.students, Catalog.enrollment, Catalog.faculty?,
          Catalog.nameSet]
      · simp [Domain.build, Domain.forKey, Domain.forCourse, Catalog.candidates,
          Catalog.facultyAvailable, Catalog.nameSet, Catalog.roomSuits, stableSort,
          Catalog.enrollment, Catalog.students, Std.HashSet.toList_empty, -Std.HashSet.all_toList]
      · simp [markUnscheduled, blockers, facultyOccupant, roomOccupant, studentOccupants, facultyOf,
          Catalog.course?, Catalog.students, sortKeys, stableSort]
      · simp [markUnscheduled, unassign, check, facultyOf, Catalog.course?, Catalog.room?,
          Catalog.slot?, Catalog.roomSuits, Catalog.facultyAvailable, Catalog.students,
          Catalog.enrollment, Catalog.faculty?, Catalog.nameSet]
    have hstuck : ∀ q ∈ (Domain.build e).forKey ⟨"c", 0⟩,
        (((empty e).place ⟨"c", 0⟩ ⟨"s", "r"⟩).markUnscheduled ⟨"c", 1⟩ "custom").lookup
          ⟨"c", 0⟩ = some q := by
      rw [hcand]
      simp [markUnscheduled, lookup]
    refine ⟨e, ((empty e).place ⟨"c", 0⟩ ⟨"s", "r"⟩).markUnscheduled ⟨"c", 1⟩ "custom", rfl, ?_⟩
    obtain ⟨hfail, hreason⟩ := relocateAt_drops_reason (Domain.build e) .leastLoaded hbl
      (by simp) hfit hstuck
    refine ⟨.markUnscheduled _ _ (.assign (.empty he) (assign_eq_ok.mpr ⟨hcheck, rfl⟩)),
      by simp [markUnscheduled], by simp [markUnscheduled, reason?], ?_⟩
    simp only [applyMove, relocate_eq, hcand, List.foldl_cons, List.foldl_nil, Bool.false_eq_true,
      if_false]
    exact ⟨hfail, hreason⟩

end Timetable

end Timetabling
