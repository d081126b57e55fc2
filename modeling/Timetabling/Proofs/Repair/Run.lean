import Timetabling.Proofs.Repair.Edits
import Timetabling.Proofs.Search.Domain

/-! # What a repair run reports

A repair run keeps the counts it reports in step with what it did. Each iteration counts one
iteration and one update and trains the table once, and the best timetable seen misses exactly as
many sessions as the run records for it, never more than the timetable the run started from.
`RepairState.Counts` is that invariant; `RepairState.step_counts` is what one iteration keeps and
`RepairState.loop_counts` what a whole run keeps, whether it ends by its fuel, by the configured
number of iterations or by running out of conflicts.

`Timetable.repair_reports` reads the report of a run that returns a result off it: the conflicts
it started with and those left, every missing session accounted for, no more iterations than
configured, the table trained once per update, and a timetable that misses nothing handed back
as it was, with the table untouched. -/

namespace Timetabling

namespace RepairStats

/-- Counting a use of a move changes no other count. -/
@[simp] theorem count_iterations (st : RepairStats) (name : String) :
    (st.count name).iterations = st.iterations := by
  unfold count
  split <;> rfl

@[simp] theorem count_initialConflicts (st : RepairStats) (name : String) :
    (st.count name).initialConflicts = st.initialConflicts := by
  unfold count
  split <;> rfl

end RepairStats

namespace RepairState

section Record

variable (s : RepairState) (cfg : RepairConfig) (it : Nat) (move : Move) (moved : Bool)
  (work : Timetable) (conflicts : List Shortfall) (reward : Float) (table : QTable) (rng : Pcg)

@[simp] theorem record_iterations :
    (s.record cfg it move moved work conflicts reward table rng).stats.iterations =
      s.stats.iterations + 1 := by
  simp [record]

@[simp] theorem record_initialConflicts :
    (s.record cfg it move moved work conflicts reward table rng).stats.initialConflicts =
      s.stats.initialConflicts := by
  simp [record]

/-- The best timetable after an iteration is either the new working one, recorded with its
conflicts, which are then no more than the best count before, or the best before with its
count. -/
theorem record_best_missing :
    ((s.record cfg it move moved work conflicts reward table rng).best = work ∧
        (s.record cfg it move moved work conflicts reward table rng).bestMissing = conflicts.length ∧
        conflicts.length ≤ s.bestMissing) ∨
      ((s.record cfg it move moved work conflicts reward table rng).best = s.best ∧
        (s.record cfg it move moved work conflicts reward table rng).bestMissing = s.bestMissing) := by
  unfold record
  dsimp only
  split
  · rename_i hbetter
    refine .inl ⟨rfl, rfl, ?_⟩
    simp only [Bool.or_eq_true, decide_eq_true_eq, Bool.and_eq_true, beq_iff_eq] at hbetter
    omega
  · exact .inr ⟨rfl, rfl⟩

end Record

/-- What an iteration that succeeds does: it records a move, the working timetable the move
leaves with its shortfalls, and the table trained once, at its version. -/
theorem step_eq_ok_inv {cfg : RepairConfig} {d : Domain} {s s' : RepairState} {it : Nat}
    (h : s.step cfg d it = .ok s') :
    ∃ move moved work reward table rng,
      s' = s.record cfg it move moved work (work.shortfalls d) reward table rng ∧
        table.version = s.table.version ∧ table.updates = s.table.updates + 1 := by
  unfold step at h
  split at h
  obtain ⟨sit, -, h⟩ := Catalog.exists_of_bind_eq_ok h
  split at h
  rename_i move _ _
  split at h
  obtain ⟨maxNext, -, h⟩ := Catalog.exists_of_bind_eq_ok h
  obtain ⟨table, htable, h⟩ := Catalog.exists_of_bind_eq_ok h
  cases h
  obtain ⟨q, hq, hv, hu⟩ := QTable.update_move (q := s.table) sit move _ maxNext cfg.learningRate
    cfg.discount
  rw [hq] at htable
  cases htable
  exact ⟨_, _, _, _, _, _, rfl, hv, hu⟩

/-- What a repair run that started from the timetable `t` and the table `q` keeps after `it`
iterations: the conflicts it started with, one iteration and one update counted and the table
trained once per iteration at its version, no more iterations than configured, and a best timetable that misses
as many sessions as recorded for it, no more than `t` did. -/
structure Counts (cfg : RepairConfig) (t : Timetable) (q : QTable) (it : Nat) (s : RepairState) :
    Prop where
  initial : s.stats.initialConflicts = t.missing.length
  iterations : s.stats.iterations = it
  updates : s.stats.updates = it
  trained : s.table.updates = q.updates + it
  version : s.table.version = q.version
  within : it ≤ cfg.iterations.toNat
  bestMissing : s.best.missing.length = s.bestMissing
  bestMissing_le : s.bestMissing ≤ t.missing.length

variable {cfg : RepairConfig} {t : Timetable} {q : QTable}

/-- A run starts with its own timetable as the best, and nothing counted. -/
theorem init_counts (d : Domain) : (init t d q cfg).Counts cfg t q 0 where
  initial := by simp [init, Timetable.shortfalls]
  iterations := rfl
  updates := rfl
  trained := by simp [init]
  version := rfl
  within := Nat.zero_le _
  bestMissing := by simp [init, Timetable.shortfalls]
  bestMissing_le := by simp [init, Timetable.shortfalls]

/-- An iteration the configuration allows keeps the counts, one iteration on. -/
theorem step_counts {d : Domain} {s s' : RepairState} {it : Nat} (hs : s.Counts cfg t q it)
    (hit : (it : Int) < cfg.iterations) (h : s.step cfg d it = .ok s') :
    s'.Counts cfg t q (it + 1) := by
  obtain ⟨move, moved, work, reward, table, rng, rfl, hv, hu⟩ := step_eq_ok_inv h
  have hlen : (work.shortfalls d).length = work.missing.length := by simp [Timetable.shortfalls]
  refine ⟨by simp [hs.initial], by simp [hs.iterations], by simp [hs.updates], ?_,
    by simp [hv, hs.version], by omega, ?_, ?_⟩
  · simp only [record_table, hu, hs.trained]
    push_cast
    omega
  · rcases record_best_missing s cfg it move moved work (work.shortfalls d) reward table rng with
      ⟨hb, hm, -⟩ | ⟨hb, hm⟩
    · rw [hb, hm, hlen]
    · rw [hb, hm]
      exact hs.bestMissing
  · rcases record_best_missing s cfg it move moved work (work.shortfalls d) reward table rng with
      ⟨-, hm, hle⟩ | ⟨-, hm⟩
    · rw [hm]
      exact Nat.le_trans hle hs.bestMissing_le
    · rw [hm]
      exact hs.bestMissing_le

/-- A run that ends with a result keeps the counts, whatever made it end. -/
theorem loop_counts {σ : Type} (d : Domain) :
    ∀ (fuel it : Nat) (s : RepairState) (w : RepairWatch σ) {s' : RepairState}
      {w' : RepairWatch σ}, s.Counts cfg t q it → loop cfg d fuel it s w = (.ok s', w') →
        ∃ it', s'.Counts cfg t q it'
  | 0, it, s, w, _, _, hs, h => by
    cases h
    exact ⟨it, hs⟩
  | fuel + 1, it, s, w, _, _, hs, h => by
    unfold loop at h
    split at h
    · cases h
      exact ⟨it, hs⟩
    rename_i hgo
    split at h
    · cases h
    split at h
    · cases h
    rename_i s₁ hstep
    -- an iteration runs only while the configured number is not reached
    have hit : (it : Int) < cfg.iterations := by
      simp only [Bool.or_eq_true, decide_eq_true_eq, not_or] at hgo
      omega
    exact loop_counts d fuel (it + 1) s₁ _ (step_counts hs hit hstep) h

end RepairState

/-- The table a repair run returns with a result is the table it was given, at its version,
trained once per update the run counts. -/
theorem Timetable.repair_table {σ : Type} {t : Timetable} {d : Domain} {table : QTable}
    {cfg : RepairConfig} {w : RepairWatch σ} {out : Timetable} {table' : QTable}
    {stats : RepairStats} {w' : RepairWatch σ}
    (h : t.repair d table cfg w = (.ok (out, table', stats), w')) :
    table'.version = table.version ∧ table'.updates = table.updates + stats.updates := by
  unfold Timetable.repair at h
  dsimp only at h
  split at h
  · -- nothing is missing: the table comes back untouched
    cases h
    exact ⟨rfl, by simp⟩
  · split at h
    · cases h
    rename_i s _ hloop
    cases h
    obtain ⟨it, hs⟩ := RepairState.loop_counts d _ 0 _ w (RepairState.init_counts d) hloop
    exact ⟨hs.version, by rw [hs.trained, hs.updates]⟩

/-- A repair run that returns a result reports the sessions its timetable missed and those the
result misses, no more than before, with a reason for each of them; it counts one update per
iteration, runs no more iterations than configured and trains the table once per update. A
timetable that misses nothing comes back as it was, with nothing counted and the table
untouched. -/
theorem Timetable.repair_reports {σ : Type} (t : Timetable) (d : Domain) (table : QTable)
    (cfg : RepairConfig) (w : RepairWatch σ) {out : Timetable} {table' : QTable}
    {stats : RepairStats} {w' : RepairWatch σ}
    (h : t.repair d table cfg w = (.ok (out, table', stats), w')) :
    stats.initialConflicts = t.missing.length ∧
      out.missing.length = stats.remainingConflicts ∧
      stats.remainingConflicts ≤ stats.initialConflicts ∧ out.Accounted ∧
      stats.updates = stats.iterations ∧ (stats.iterations : Int) ≤ max cfg.iterations 0 ∧
      table'.updates = table.updates + stats.updates ∧
      (t.missing = [] →
        out = t ∧ table' = table ∧ stats.reassignments = 0 ∧ stats.updates = 0) := by
  unfold Timetable.repair at h
  dsimp only at h
  split at h
  · -- nothing is missing: the run hands back what it was given
    rename_i hnone
    have hmiss : t.missing = [] := by simpa [shortfalls] using hnone
    cases h
    dsimp only
    refine ⟨by simp [shortfalls], by simp [hmiss], Nat.zero_le _, ?_, rfl, by omega, by simp,
      fun _ ↦ ⟨rfl, rfl, rfl, rfl⟩⟩
    intro k hk
    simp [hmiss] at hk
  · rename_i hsome
    have hmiss : t.missing ≠ [] := by simpa [shortfalls] using hsome
    split at h
    · cases h
    rename_i s _ hloop
    cases h
    obtain ⟨it, hs⟩ := RepairState.loop_counts d _ 0 _ w (RepairState.init_counts d) hloop
    -- marking the best timetable's missing sessions places nothing
    obtain ⟨hed, hpl, -⟩ := foldl_mark (fun b k ↦ (b.dominantBlocker d k).name) s.best.missing s.best
    have hout := missing_congr hed.catalog_eq hpl
    refine ⟨hs.initial, ?_, ?_, accounted_foldl_mark _ _, ?_, ?_, ?_, fun h ↦ absurd h hmiss⟩
    · rw [hout]
      exact hs.bestMissing
    · rw [hs.initial]
      exact hs.bestMissing_le
    · exact hs.updates.trans hs.iterations.symm
    · have := hs.within
      have := hs.iterations
      dsimp only
      omega
    · rw [hs.trained, hs.updates]

/-- Three iterations of repair, watched by nothing, on the timetable of `singleRecords` with
nothing placed yet. -/
theorem repair_reports_singleRecords :
    ∃ e, Catalog.build Domain.singleRecords = .ok e ∧
      ∃ out table' stats w',
        (Timetable.empty e).repair (Domain.build e) {} { iterations := 3 }
            (⟨(), fun x _ _ _ ↦ x, fun _ ↦ false⟩ : RepairWatch Unit) =
          (.ok (out, table', stats), w') ∧
        (stats.initialConflicts = (Timetable.empty e).missing.length ∧
          out.missing.length = stats.remainingConflicts ∧
          stats.remainingConflicts ≤ stats.initialConflicts ∧ out.Accounted ∧
          stats.updates = stats.iterations ∧ (stats.iterations : Int) ≤ max 3 0 ∧
          table'.updates = (({} : QTable).updates) + stats.updates ∧
          ((Timetable.empty e).missing = [] →
            out = Timetable.empty e ∧ table' = {} ∧ stats.reassignments = 0 ∧
              stats.updates = 0)) := by
  cases hb : Catalog.build Domain.singleRecords with
  | error err =>
    simp [Domain.singleRecords, Catalog.build, Catalog.indexFaculty, Catalog.indexSlots,
      Catalog.indexRooms, Catalog.indexCourses, Catalog.courseStudents, stableSort, dedupStrings,
      sortStrings] at hb
    cases hb
  | ok e =>
    have he : e.PeriodsInRange := by
      simp [Domain.singleRecords, Catalog.build, Catalog.indexFaculty, Catalog.indexSlots,
        Catalog.indexRooms, Catalog.indexCourses, Catalog.courseStudents, stableSort, dedupStrings,
        sortStrings] at hb
      cases hb
      simp [Catalog.PeriodsInRange]
    obtain ⟨out, table', stats, x, h, -⟩ := Timetable.repair_eq_ok (I := fun _ ↦ True)
      (t := Timetable.empty e) he (Domain.build e) {} { iterations := 3 }
      ⟨(), fun x _ _ _ ↦ x, fun _ ↦ false⟩ (fun _ _ _ _ _ ↦ trivial) (fun _ _ ↦ rfl) trivial
    exact ⟨e, rfl, out, table', stats, _, h, Timetable.repair_reports _ _ _ _ _ h⟩

end Timetabling
