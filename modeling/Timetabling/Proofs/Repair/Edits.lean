import Timetabling.Proofs.Timetable.Edited
import Timetabling.Proofs.Repair.Parts
import Timetabling.Proofs.Repair.Versions
import Timetabling.Repair.Agent

/-! # Repair edits its timetable and accounts for every session

Every repair move places, removes and marks sessions, and puts back what it displaced by trying
the old placements again, so each move is an edit of its timetable (`Timetable.applyMove_edited`).
An iteration of the agent keeps its working timetable and the best one seen edits of the timetable
the run started from. An iteration fails only when observing a session meets a candidate slot
with no part of the day; over a catalog whose periods all fit in range it never fails, and
training never does either, since every move is a column of the table.

So a repair run over such a catalog never faults, whatever its watch does: it returns an edit of its
input, or its watch stops it (`Timetable.repair_ok_or_stopped`); and a run that is never stopped
returns an edit in which every missing session has a reason (`Timetable.repair_eq_ok`). -/

namespace Timetabling

/-- A computation that succeeds with `a`, followed by one that succeeds from `a`, succeeds. -/
theorem bind_eq_ok_of {ε α β : Type} {P : β → Prop} {x : Except ε α} {f : α → Except ε β} {a : α}
    (hx : x = .ok a) (hf : ∃ b, f a = .ok b ∧ P b) : ∃ b, x >>= f = .ok b ∧ P b := by
  rw [hx]
  exact hf

namespace Timetable

/-- A fold whose every step is an edit is an edit. -/
theorem Edited.foldl {α : Type} {g : Timetable → α → Timetable} (hg : ∀ t a, Edited t (g t a)) :
    ∀ (xs : List α) (t : Timetable), Edited t (xs.foldl g t)
  | [], _ => .refl
  | x :: xs, t => (hg t x).trans (Edited.foldl hg xs _)

/-- Putting displaced sessions back is an edit. -/
theorem restore_edited (t : Timetable) (moved : List SessionKey)
    (saved : List (SessionKey × Placement)) : Edited t (t.restore moved saved) := by
  unfold restore
  -- the moved sessions are removed, then each saved placement is tried again
  refine (Edited.foldl (fun t k ↦ Edited.refl.unassign k) moved t).trans
    (Edited.foldl (fun t kp ↦ ?_) _ _)
  obtain ⟨k, p⟩ := kp
  exact Edited.assignOr k p

/-- Placing a session at the first accepted placement is an edit. -/
theorem assignFirst_edited {t t' : Timetable} {key : SessionKey} {ps : List Placement}
    (h : t.assignFirst key ps = some t') : Edited t t' := by
  obtain ⟨p, -, hp⟩ := List.exists_of_findSome?_eq_some h
  cases ha : t.assign key p with
  | ok t₁ =>
    simp only [ha, Except.toOption, Option.some.injEq] at hp
    rw [← hp]
    exact .of_assign ha
  | error c => simp [ha, Except.toOption] at hp

theorem moveBlockers_edited (d : Domain) (pref : Preference) (saved : List (SessionKey × Placement))
    (t : Timetable) : Edited t (moveBlockers d pref saved t).1 := by
  unfold moveBlockers
  refine List.foldlRecOn (motive := fun acc : Timetable × List SessionKey × Bool ↦ Edited t acc.1)
    _ _ .refl fun acc hacc bp _ ↦ ?_
  obtain ⟨t₁, moved, ok⟩ := acc
  obtain ⟨b, old⟩ := bp
  dsimp only at hacc ⊢
  split
  · exact hacc
  · split
    · rename_i t₂ h
      exact hacc.trans (assignFirst_edited h)
    · exact hacc

theorem relocate_edited (t : Timetable) (d : Domain) (key : SessionKey) (pref : Preference)
    (evict : Bool) : Edited t (t.relocate d key pref evict).2 := by
  unfold relocate
  refine List.foldlRecOn (motive := fun acc : Bool × Timetable ↦ Edited t acc.2) _ _ .refl
    fun acc hacc p _ ↦ ?_
  obtain ⟨done, t₁⟩ := acc
  dsimp only at hacc ⊢
  split
  · exact hacc
  · have hfreed : Edited t₁ ((t₁.blockers key p).foldl (fun t b ↦ (t.unassign b).2) t₁) :=
      Edited.foldl (fun t b ↦ Edited.refl.unassign b) _ _
    split
    · -- nothing blocks the candidate
      split
      · rename_i t₂ ha
        exact hacc.trans (.of_assign ha)
      · exact hacc
    · split
      · exact hacc
      · -- the blockers are removed and the session placed; then the blockers move, or the move is
        -- undone, or the one blocker is evicted
        split
        · exact hacc.trans (hfreed.trans (restore_edited _ _ _))
        · rename_i placed ha
          have hmoved : ∀ saved, Edited t₁ (moveBlockers d pref saved placed).1 := fun saved ↦
            (hfreed.trans (.of_assign ha)).trans (moveBlockers_edited d pref saved placed)
          split
          · exact hacc.trans (hmoved _)
          · split
            · exact hacc.trans ((hmoved _).markUnscheduled _ _)
            · exact hacc.trans (((hmoved _).unassign key).trans (restore_edited _ _ _))

theorem placeInSlot_edited {t t' : Timetable} {d : Domain} {key : SessionKey} {slot : String}
    (h : t.placeInSlot d key slot = some t') : Edited t t' :=
  assignFirst_edited h

theorem trySwap_edited (t : Timetable) (d : Domain) (key : SessionKey) (p : Placement)
    (blocker : SessionKey) (blockerAt : Placement) (partner : SessionKey) (partnerAt : Placement) :
    Edited t (t.trySwap d key p blocker blockerAt partner partnerAt).2 := by
  unfold trySwap
  -- the blocker and the partner are removed, each is placed in the other's slot, then the session
  -- is placed; a failure on the way puts back what was displaced
  have hfreed : Edited t ((t.unassign blocker).2.unassign partner).2 :=
    (Edited.refl.unassign blocker).unassign partner
  dsimp only
  split
  · exact hfreed.trans (restore_edited _ _ _)
  · rename_i t₁ h₁
    have h₁' := hfreed.trans (placeInSlot_edited h₁)
    split
    · exact h₁'.trans (restore_edited _ _ _)
    · rename_i t₂ h₂
      have h₂' := h₁'.trans (placeInSlot_edited h₂)
      split
      · rename_i t₃ ha
        exact h₂'.trans (.of_assign ha)
      · exact h₂'.trans (restore_edited _ _ _)

theorem swap_edited (t : Timetable) (d : Domain) (key : SessionKey) : Edited t (t.swap d key).2 := by
  unfold swap
  refine List.foldlRecOn (motive := fun acc : Bool × Timetable ↦ Edited t acc.2) _ _ .refl
    fun acc hacc p _ ↦ ?_
  obtain ⟨done, t₁⟩ := acc
  dsimp only at hacc ⊢
  split
  · exact hacc
  · split
    · -- a single blocker: partners are tried one by one
      dsimp only
      refine hacc.trans (List.foldlRecOn (motive := fun acc : Bool × Timetable × Nat ↦
        Edited t₁ acc.2.1) _ _ .refl fun acc hacc' partner _ ↦ ?_)
      obtain ⟨done', t₂, scanned⟩ := acc
      dsimp only at hacc' ⊢
      split
      · exact hacc'
      · split
        · exact hacc'
        · exact hacc'.trans (trySwap_edited _ _ _ _ _ _ _ _)
    · exact hacc

/-- Every repair move is an edit. -/
theorem applyMove_edited (t : Timetable) (d : Domain) (m : Move) (key : SessionKey) :
    Edited t (t.applyMove d m key).2 := by
  unfold applyMove
  split
  · split
    · rename_i t' h
      exact assignFirst_edited h
    · exact .refl
  · exact relocate_edited ..
  · exact swap_edited ..
  · exact relocate_edited ..

end Timetable

/-- The best value after a move is looked up without fault when every period is in range. -/
theorem QTable.lookahead_eq_ok (q : QTable) (d : Domain) {work : Timetable}
    (he : work.catalog.PeriodsInRange) : ∀ conflicts, ∃ v, q.lookahead d work conflicts = .ok v
  | [] => ⟨0, rfl⟩
  | c :: _ => by
    obtain ⟨sit, h⟩ := Timetable.observe_eq_ok he d c
    exact ⟨_, by simp only [QTable.lookahead, h, ok_bind]; rfl⟩

namespace RepairState

section Record

variable (s : RepairState) (cfg : RepairConfig) (it : Nat) (move : Move) (moved : Bool)
  (work : Timetable) (conflicts : List Shortfall) (reward : Float) (table : QTable) (rng : Pcg)

@[simp] theorem record_work : (s.record cfg it move moved work conflicts reward table rng).work = work :=
  rfl

@[simp] theorem record_table :
    (s.record cfg it move moved work conflicts reward table rng).table = table := rfl

@[simp] theorem record_conflicts :
    (s.record cfg it move moved work conflicts reward table rng).conflicts = conflicts := rfl

/-- An iteration counts one more update. -/
@[simp] theorem record_updates :
    (s.record cfg it move moved work conflicts reward table rng).stats.updates = s.stats.updates + 1 := by
  unfold record RepairStats.count
  dsimp only
  split <;> rfl

/-- The best timetable after an iteration is the new working one or the best before. -/
theorem record_best :
    (s.record cfg it move moved work conflicts reward table rng).best = work ∨
      (s.record cfg it move moved work conflicts reward table rng).best = s.best := by
  unfold record
  dsimp only
  split
  · exact .inl rfl
  · exact .inr rfl

end Record

/-- An iteration over a catalog whose periods are in range succeeds. Its working timetable
is an edit of the one before, its best is that or the best before, and its table is the one
before trained once, at the same version. -/
theorem step_eq_ok (cfg : RepairConfig) (d : Domain) (s : RepairState) (it : Nat)
    (he : s.work.catalog.PeriodsInRange) :
    ∃ s', s.step cfg d it = .ok s' ∧ Timetable.Edited s.work s'.work ∧
      (s'.best = s'.work ∨ s'.best = s.best) ∧ s'.table.version = s.table.version ∧
      s'.table.updates = s.table.updates + 1 ∧ s'.stats.updates = s.stats.updates + 1 := by
  unfold step
  -- each fallible part is named by its result, and each pair by its parts, so that no chosen
  -- move is ever evaluated
  split
  rename_i i rng hrng
  obtain ⟨sit, hsit⟩ := s.work.observe_eq_ok he d (s.conflicts.getD i ⟨default, ""⟩)
  refine bind_eq_ok_of hsit ?_
  split
  rename_i move rng' hchoose
  split
  rename_i moved work hmove
  have hwork : Timetable.Edited s.work work := by
    have h := Timetable.applyMove_edited s.work d move (s.conflicts.getD i ⟨default, ""⟩).key
    rwa [hmove] at h
  obtain ⟨maxNext, hmax⟩ := s.table.lookahead_eq_ok d (hwork.catalog_eq ▸ he) (work.shortfalls d)
  refine bind_eq_ok_of hmax ?_
  obtain ⟨q, hq, hv, hu⟩ := QTable.update_move (q := s.table) sit move
    (Shortfall.reward s.conflicts (work.shortfalls d)
      (decide (work.loadVariance < s.work.loadVariance - varianceEpsilon)))
    maxNext cfg.learningRate cfg.discount
  refine bind_eq_ok_of hq ⟨_, rfl, hwork, record_best .., hv, hu, record_updates ..⟩

/-- What a repair run keeps of the timetable `t₀` it started from: its working timetable and the
best one seen are edits of `t₀`. -/
structure Edits (t₀ : Timetable) (s : RepairState) : Prop where
  work : Timetable.Edited t₀ s.work
  best : Timetable.Edited t₀ s.best

/-- An iteration whose working timetable is an edit of the one before, and whose best is that or
the best before, keeps both edits of the start. -/
theorem Edits.step {t₀ : Timetable} {s s' : RepairState} (hs : s.Edits t₀)
    (hwork : Timetable.Edited s.work s'.work) (hbest : s'.best = s'.work ∨ s'.best = s.best) :
    s'.Edits t₀ := by
  refine ⟨hs.work.trans hwork, ?_⟩
  rcases hbest with h | h
  · rw [h]
    exact hs.work.trans hwork
  · rw [h]
    exact hs.best

/-- A repair run over a catalog whose periods are in range, which its watch never stops,
ends with a result; every iteration keeps its timetables edits of the start and trains the table
once. `I` is what the watch's state keeps from note to note. -/
theorem loop_eq_ok {σ : Type} {I : σ → Prop} {t₀ : Timetable} (he : t₀.catalog.PeriodsInRange)
    (cfg : RepairConfig) (d : Domain) (note : σ → Nat → Int → Nat → σ) (stopped : σ → Bool)
    (hnote : ∀ x it total left, I x → I (note x it total left))
    (hstop : ∀ x, I x → stopped x = false) :
    ∀ (fuel it : Nat) (s : RepairState) (x : σ), s.Edits t₀ → I x →
      ∃ s' x', loop cfg d fuel it s ⟨x, note, stopped⟩ = (.ok s', ⟨x', note, stopped⟩) ∧
        s'.Edits t₀ ∧ I x' ∧ s'.table.version = s.table.version ∧
        s'.table.updates + s.stats.updates = s.table.updates + s'.stats.updates
  | 0, _, s, x, hs, hx => ⟨s, x, rfl, hs, hx, rfl, rfl⟩
  | fuel + 1, it, s, x, hs, hx => by
    unfold loop
    split
    · exact ⟨s, x, rfl, hs, hx, rfl, rfl⟩
    · rw [if_neg (by simp [hstop x hx])]
      obtain ⟨s₁, hstep, hwork, hbest, hv, hu, hsu⟩ :=
        step_eq_ok cfg d s it (hs.work.catalog_eq ▸ he)
      rw [hstep]
      obtain ⟨s', x', hloop, hs', hx', hv', hu'⟩ := loop_eq_ok he cfg d note stopped hnote hstop
        fuel (it + 1) s₁ _ (hs.step hwork hbest) (hnote _ _ _ _ hx)
      refine ⟨s', x', hloop, hs', hx', hv'.trans hv, ?_⟩
      rw [hu, hsu] at hu'
      push_cast at hu'
      omega

/-- A repair run over a catalog whose periods are in range never faults, whatever its watch does:
it ends with a result whose timetables are edits of the start, or its watch stops it. -/
theorem loop_ok_or_stopped {σ : Type} {t₀ : Timetable} (he : t₀.catalog.PeriodsInRange)
    (cfg : RepairConfig) (d : Domain) :
    ∀ (fuel it : Nat) (s : RepairState) (w : RepairWatch σ), s.Edits t₀ →
      (∃ s' w', loop cfg d fuel it s w = (.ok s', w') ∧ s'.Edits t₀) ∨
        ∃ it' s' w', loop cfg d fuel it s w = (.error (.stopped it', s'), w')
  | 0, _, s, w, hs => .inl ⟨s, w, rfl, hs⟩
  | fuel + 1, it, s, w, hs => by
    unfold loop
    split
    · exact .inl ⟨s, w, rfl, hs⟩
    split
    · exact .inr ⟨it, s, w, rfl⟩
    -- the iteration cannot fault, so the run goes on from its state
    obtain ⟨s₁, hstep, hwork, hbest, -⟩ := step_eq_ok cfg d s it (hs.work.catalog_eq ▸ he)
    rw [hstep]
    exact loop_ok_or_stopped he cfg d fuel (it + 1) s₁ _ (hs.step hwork hbest)

end RepairState

/-- A repair that its watch never stops, over a catalog whose periods are in range, returns
an edit of its timetable in which every missing session has a reason, with the table trained once
per iteration at its version. `I` is what the watch's state keeps from note to note. -/
theorem Timetable.repair_eq_ok {σ : Type} {I : σ → Prop} {t : Timetable}
    (he : t.catalog.PeriodsInRange) (d : Domain) (table : QTable) (cfg : RepairConfig)
    (w : RepairWatch σ) (hnote : ∀ x it total left, I x → I (w.note x it total left))
    (hstop : ∀ x, I x → w.stopped x = false) (hx : I w.state) :
    ∃ t' table' stats x, t.repair d table cfg w = (.ok (t', table', stats), { w with state := x }) ∧
      t.Edited t' ∧ t'.Accounted ∧ I x ∧ table'.version = table.version ∧
      table'.updates = table.updates + stats.updates := by
  obtain ⟨x₀, note, stopped⟩ := w
  unfold Timetable.repair
  dsimp only
  split
  · -- nothing is missing: the timetable comes back as it was
    rename_i hnone
    refine ⟨t, table, _, x₀, rfl, .refl, fun k hk ↦ ?_, hx, rfl, by simp⟩
    simp only [shortfalls, List.isEmpty_iff, List.map_eq_nil_iff] at hnone
    simp [hnone] at hk
  · obtain ⟨s', x', hloop, hs', hx', hv, hu⟩ := RepairState.loop_eq_ok he cfg d note stopped hnote hstop
      cfg.iterations.toNat 0 (RepairState.init t d table cfg) x₀ ⟨.refl, .refl⟩ hx
    rw [hloop]
    -- the best timetable seen, with every missing session marked
    obtain ⟨hbest, hacc⟩ := hs'.best.foldl_mark_missing fun b k ↦ (b.dominantBlocker d k).name
    refine ⟨_, _, _, x', rfl, hbest, hacc, hx', hv, ?_⟩
    simpa [RepairState.init] using hu

/-- A repair over a catalog whose periods are in range never faults, whatever its watch does: it
returns an edit of its timetable, or its watch stops it. -/
theorem Timetable.repair_ok_or_stopped {σ : Type} {t : Timetable} (he : t.catalog.PeriodsInRange)
    (d : Domain) (table : QTable) (cfg : RepairConfig) (w : RepairWatch σ) :
    (∃ t' table' stats w', t.repair d table cfg w = (.ok (t', table', stats), w') ∧ t.Edited t') ∨
      ∃ it x w', t.repair d table cfg w = (.error (.stopped it, x), w') := by
  unfold Timetable.repair
  dsimp only
  split
  · exact .inl ⟨t, table, _, w, rfl, .refl⟩
  · rcases RepairState.loop_ok_or_stopped he cfg d cfg.iterations.toNat 0
      (RepairState.init t d table cfg) w ⟨.refl, .refl⟩ with ⟨s', w', hloop, hs'⟩ | ⟨it, s', w', hloop⟩
    · -- the best timetable seen, with every missing session marked
      rw [hloop]
      exact .inl ⟨_, _, _, w', rfl, (hs'.best.foldl_mark_missing _).1⟩
    · rw [hloop]
      exact .inr ⟨it, _, w', rfl⟩

end Timetabling
