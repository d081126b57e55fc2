import Mathlib
import Timetabling.Proofs.Pipeline.Outcome
import Timetabling.Proofs.Repair.Versions

/-! # Committing the trained Q-table

A run reads the Q-table of its request's scope when repair starts, and saves the table repair
trained only once the repaired timetable has passed validation, as the last thing the repair stage
does; nothing after that can fail. The store is touched nowhere else.

This file follows one run over a shelf that answers its load with some table `t₀` and saves as the
in-memory store does, to whatever store it is given: a run that fails leaves that store as it was;
a completed run whose repair counted an update saves the trained table, which the store accepts
exactly when `t₀` carries the stored version, and reports the save (`generate_committedFrom`).
When `t₀` carries the stored version and updates, that is a save at the next version with the
counted updates added (`RunOutcome.CommittedFrom.committed`). -/

namespace Timetabling

namespace TableStore

/-- The updates counted in the stored table of a scope, zero when nothing is stored. -/
def updates (st : TableStore) (scope : String) : Int :=
  ((st.tables[normalizeScope scope]?).map (·.updates)).getD 0

/-- A load answers a table with the stored updates, zero when nothing is stored. -/
theorem load_updates (st : TableStore) (scope : String) :
    (st.load scope).updates = st.updates scope := by
  unfold load updates
  cases st.tables[normalizeScope scope]? <;> rfl

/-- The updates a store keeps for a scope after a table is put under a normalized scope. -/
theorem updates_insert (st : TableStore) (scope s : String) (q : QTable) :
    (⟨st.tables.insert (normalizeScope scope) q⟩ : TableStore).updates s =
      if normalizeScope s = normalizeScope scope then q.updates else st.updates s := by
  unfold updates
  rw [Std.HashMap.getElem?_insert]
  by_cases h : normalizeScope s = normalizeScope scope
  · simp [h]
  · simp [h, Ne.symm h]

/-- The stored updates of a scope depend only on its normalized name. -/
theorem updates_congr {st : TableStore} {s s' : String} (h : normalizeScope s = normalizeScope s') :
    st.updates s = st.updates s' := by
  simp [updates, h]

/-- `st'` is `st` after a table loaded from `scope` and trained by `n` updates was saved back: the
scope's table is replaced by one of the next version, with `n` more updates. -/
def Saved (st : TableStore) (scope : String) (n : Nat) (st' : TableStore) : Prop :=
  ∃ q : QTable, st' = ⟨st.tables.insert (normalizeScope scope) q⟩ ∧
    q.version = st.version scope + 1 ∧ q.updates = st.updates scope + n

section Saved

variable {st st' : TableStore} {scope : String} {n : Nat}

theorem Saved.version_eq (h : st.Saved scope n st') (k : String) :
    st'.version k = st.version k + if normalizeScope k = normalizeScope scope then 1 else 0 := by
  obtain ⟨q, rfl, hv, -⟩ := h
  rw [version_insert]
  by_cases hk : normalizeScope k = normalizeScope scope
  · rw [if_pos hk, if_pos hk, hv, version_congr hk]
  · rw [if_neg hk, if_neg hk, Int.add_zero]

theorem Saved.updates_eq (h : st.Saved scope n st') (k : String) :
    st'.updates k = st.updates k + if normalizeScope k = normalizeScope scope then (n : Int) else 0 := by
  obtain ⟨q, rfl, -, hu⟩ := h
  rw [updates_insert]
  by_cases hk : normalizeScope k = normalizeScope scope
  · rw [if_pos hk, if_pos hk, hu, updates_congr hk]
  · rw [if_neg hk, if_neg hk, Int.add_zero]

end Saved

end TableStore

/-- A shelf over the in-memory store that answers a load of `scope` at the store `st` with the
table `t₀`, leaving the store as it is, and saves as the in-memory store does. -/
structure TableShelf.Serves (shelf : TableShelf TableStore) (st : TableStore) (scope : String)
    (t₀ : QTable) : Prop where
  load : shelf.load st scope = (.ok t₀, st)
  save : shelf.save = TableStore.shelf.save

/-- What a completed run with the statistics `stats`, having loaded `t₀`, did with the store `st`
it met at its commit, as the store `st'` it left shows: it repaired; when the repair counted an
update and `t₀` carries the stored version, it saved the trained table under the next version and
reports the save; otherwise it left the store as it was and reports none. -/
def RunStats.CommittedFrom (stats : RunStats) (scope : String) (t₀ : QTable) (st st' : TableStore) :
    Prop :=
  ∃ s : RepairStats, stats.repair = some s ∧
    if 0 < s.updates ∧ t₀.version = st.version scope then
      stats.qtableSaved = true ∧ ∃ q : QTable, st' = ⟨st.tables.insert (normalizeScope scope) q⟩ ∧
        q.version = t₀.version + 1 ∧ q.updates = t₀.updates + s.updates
    else stats.qtableSaved = false ∧ st' = st

/-- What a run that loaded `t₀` did with the store `st` it met at its commit: a failed run left it
as it was, and a completed one did what its statistics say. -/
def RunOutcome.CommittedFrom {σ : Type} (out : RunOutcome σ TableStore) (scope : String)
    (t₀ : QTable) (st : TableStore) : Prop :=
  match out.result with
  | .ok r => r.stats.CommittedFrom scope t₀ st out.store
  | .error _ => out.store = st

/-- What a completed run with the statistics `stats` did with the store `st` it met at its commit,
as the store `st'` it left shows: it repaired, it reports a save exactly when the repair counted an
update, and then it saved once to `scope`, at the next version; otherwise it left the store as it
was. -/
def RunStats.Committed (stats : RunStats) (scope : String) (st st' : TableStore) : Prop :=
  ∃ s : RepairStats, stats.repair = some s ∧ stats.qtableSaved = decide (0 < s.updates) ∧
    if 0 < s.updates then st.Saved scope s.updates st' else st' = st

/-- What a run did with the in-memory store `st` it met at its commit: a failed run left it as it
was, and a completed one did what its statistics say. -/
def RunOutcome.Committed {σ : Type} (out : RunOutcome σ TableStore) (scope : String)
    (st : TableStore) : Prop :=
  match out.result with
  | .ok r => r.stats.Committed scope st out.store
  | .error _ => out.store = st

section Current

variable {scope : String} {t₀ : QTable} {st st' : TableStore}

/-- A commit from a table carrying the stored version and updates is never refused. -/
theorem RunStats.CommittedFrom.committed {stats : RunStats} (h : stats.CommittedFrom scope t₀ st st')
    (hv : t₀.version = st.version scope) (hu : t₀.updates = st.updates scope) :
    stats.Committed scope st st' := by
  obtain ⟨s, hrep, h⟩ := h
  by_cases hs : 0 < s.updates
  · rw [if_pos ⟨hs, hv⟩] at h
    obtain ⟨hsaved, q, rfl, hqv, hqu⟩ := h
    refine ⟨s, hrep, by rw [hsaved, decide_eq_true hs], ?_⟩
    rw [if_pos hs]
    exact ⟨q, rfl, hqv.trans (by rw [hv]), hqu.trans (by rw [hu])⟩
  · rw [if_neg fun h ↦ hs h.1] at h
    exact ⟨s, hrep, by rw [h.1, decide_eq_false hs], by rw [if_neg hs]; exact h.2⟩

theorem RunOutcome.CommittedFrom.committed {σ : Type} {out : RunOutcome σ TableStore}
    (h : out.CommittedFrom scope t₀ st) (hv : t₀.version = st.version scope)
    (hu : t₀.updates = st.updates scope) : out.Committed scope st := by
  unfold RunOutcome.CommittedFrom at h
  unfold RunOutcome.Committed
  split at h
  · exact h.committed hv hu
  · exact h

end Current

namespace RunStep

open RunContext

variable {σ : Type} {req : RunRequest} {st : TableStore} {t₀ : QTable}
  {c c' : RunContext σ TableStore}

/-- A run before repair: it serves `req`, reaches the store `st` through a shelf that loads `t₀`
there, has not moved the store, holds no trained table, and reported no save. -/
structure Uncommitted (req : RunRequest) (st : TableStore) (t₀ : QTable)
    (c : RunContext σ TableStore) : Prop where
  request : c.request = req
  shelf : c.shelf.Serves st req.scope t₀
  store : c.store = st
  trained : c.trained = none
  saved : c.stats.qtableSaved = false

theorem Uncommitted.settled (h : Uncommitted req st t₀ c) (hc : c.Settled c') :
    Uncommitted req st t₀ c' :=
  ⟨hc.request.trans h.request, hc.shelf ▸ h.shelf, hc.store.trans h.store,
    hc.trained.trans h.trained, hc.saved.trans h.saved⟩

theorem Uncommitted.moved (h : Uncommitted req st t₀ c) (hc : Moved c c') :
    Uncommitted req st t₀ c' := by
  obtain ⟨_, _, rfl⟩ := hc
  exact ⟨h.request, h.shelf, h.store, h.trained, h.saved⟩

/-- A stage before repair keeps the run uncommitted, however it ends. -/
theorem execute_uncommitted (s : Stage) (exclusive validate : Bool)
    {body : RunStep σ TableStore (List (String × Int))}
    (hbody : ∀ c₀, Triple (· = c₀) body (fun _ ↦ Hears s c₀) (fun _ ↦ Hears s c₀)) :
    Triple (Uncommitted req st t₀) (execute s exclusive validate false body)
      (fun _ ↦ Uncommitted req st t₀) (fun _ ↦ Uncommitted req st t₀) :=
  execute_triple s exclusive validate false
    (transition_keeps (fun _ _ h hc ↦ Uncommitted.moved h hc) s 0 "started" none)
    (Triple.lift (fun _ _ h hc ↦ h.settled hc.settled) hbody) (fun _ _ h ↦ h)
    (Triple.pure_of () fun _ h ↦ h) fun _ _ h ↦ ⟨h.request, h.shelf, h.store, h.trained, h.saved⟩

/-- The check before a stage keeps the run uncommitted, however it ends. -/
theorem boundary_uncommitted (next : Stage) :
    Triple (Uncommitted req st t₀) (boundary next : RunStep σ TableStore Unit)
      (fun _ ↦ Uncommitted req st t₀) (fun _ ↦ Uncommitted req st t₀) :=
  Triple.lift (fun _ _ h hc ↦ h.settled hc.settled) (boundary_hears next next)

/-- A run after repair and before its commit: it serves `req`, saves as the in-memory store does
to the store `st`, which it has not moved, and reported no save; its repair counted `s.updates`
updates, and it holds the table it trained exactly when it counted one, at the version of `t₀`,
with those updates more. -/
structure Trained (req : RunRequest) (st : TableStore) (t₀ : QTable) (c : RunContext σ TableStore) :
    Prop where
  request : c.request = req
  save : c.shelf.save = TableStore.shelf.save
  store : c.store = st
  saved : c.stats.qtableSaved = false
  trained : ∃ (table : QTable) (s : RepairStats), c.stats.repair = some s ∧
    c.trained = (if s.updates > 0 then some table else none) ∧
    table.version = t₀.version ∧ table.updates = t₀.updates + s.updates

/-- Repair trains the table the shelf loads; loading leaves the store as it was, so a repair that
stops leaves it unchanged too. -/
theorem repairStage_trained :
    Triple (Uncommitted req st t₀) (repairStage : RunStep σ TableStore _)
      (fun _ ↦ Trained req st t₀) (fun _ c ↦ c.store = st) := by
  intro c₀ h₀
  have hload : c₀.shelf.load c₀.store c₀.request.scope = (.ok t₀, st) := by
    rw [h₀.store, h₀.request]
    exact h₀.shelf.load
  have hloaded : loadedTable c₀ = t₀ := by
    rw [loadedTable, hload]
    rfl
  refine (repairStage_repaired c₀).mono (fun _ h ↦ h) (fun _ c h ↦ ?_) (fun _ c h ↦ ?_) c₀ rfl
  · obtain ⟨hr, hsaved, table, s, hrep, htr, hv, hu⟩ := h
    refine ⟨hr.request.trans h₀.request, hr.shelf ▸ h₀.shelf.save, ?_, hsaved.trans h₀.saved,
      table, s, hrep, htr, ?_, ?_⟩
    · rw [hr.store, hload]
    · rw [hv, hloaded]
    · rw [hu, hloaded]
  · rw [h.store, hload]

/-- The commit saves the trained table, which carries the version of `t₀`: the store accepts it
exactly when that is the stored version. Without a trained table nothing is saved. -/
theorem commitTable_committed {R : StageFault → RunContext σ TableStore → Prop} :
    Triple (Trained req st t₀) (commitTable : RunStep σ TableStore Unit)
      (fun _ c ↦ c.stats.CommittedFrom req.scope t₀ st c.store ∧ c.request = req) R := by
  unfold commitTable
  refine Triple.get_bind fun c₀ h₀ ↦ ?_
  obtain ⟨table, s, hrep, htr, hv, hu⟩ := h₀.trained
  rw [htr]
  by_cases hs : 0 < s.updates
  · have hsave : c₀.shelf.save c₀.store c₀.request.scope table =
        TableStore.shelf.save st req.scope table := by
      rw [h₀.save, h₀.store, h₀.request]
    rw [if_pos hs]
    refine Triple.bind (Triple.set_of (Q := fun _ _ ↦ True) fun _ _ ↦ trivial) fun _ ↦ ?_
    dsimp only
    rw [hsave]
    unfold TableStore.shelf
    dsimp only
    rw [TableStore.save_some]
    by_cases hver : table.version = st.version req.scope
    · -- the table carries the stored version: the save is accepted
      rw [if_pos hver]
      refine Triple.set_of fun _ _ ↦ ⟨⟨s, hrep, ?_⟩, h₀.request⟩
      rw [if_pos ⟨hs, hv.symm.trans hver⟩]
      exact ⟨rfl, _, rfl, by simp [hv], by simp [hu]⟩
    · -- another version is stored: the save is refused and the run reports none
      rw [if_neg hver]
      refine Triple.set_of fun _ _ ↦ ⟨⟨s, hrep, ?_⟩, h₀.request⟩
      rw [if_neg fun h ↦ hver (hv.trans h.2)]
      exact ⟨h₀.saved, rfl⟩
  · -- nothing was trained worth saving
    rw [if_neg hs]
    refine Triple.pure_of () fun c hc ↦ ⟨⟨s, hc ▸ hrep, ?_⟩, hc ▸ h₀.request⟩
    rw [if_neg fun h ↦ hs h.1, hc]
    exact ⟨h₀.saved, h₀.store⟩

/-- The repair stage: a stop leaves the store unchanged, and a success commits. -/
theorem execute_repairing_committed :
    Triple (Uncommitted req st t₀)
      (execute .repairing true true true (repairStage : RunStep σ TableStore _))
      (fun _ c ↦ c.stats.CommittedFrom req.scope t₀ st c.store ∧ c.request = req)
      (fun _ c ↦ c.store = st) :=
  execute_triple .repairing true true true
    (transition_keeps (fun _ _ h hc ↦ Uncommitted.moved h hc) .repairing 0 "started" none)
    repairStage_trained (fun _ _ h ↦ h.store) commitTable_committed fun _ _ h ↦ h

theorem CommittedFrom.moved {scope : String} (h : c.stats.CommittedFrom scope t₀ st c.store)
    (hc : Moved c c') : c'.stats.CommittedFrom scope t₀ st c'.store := by
  obtain ⟨_, _, rfl⟩ := hc
  exact h

/-- A stage before repair, with the check before it, keeps the run uncommitted; a stop there
leaves the store as it was. -/
theorem stage_uncommitted (s : Stage) (exclusive validate : Bool)
    {body : RunStep σ TableStore (List (String × Int))}
    (hbody : ∀ c₀, Triple (· = c₀) body (fun _ ↦ Hears s c₀) (fun _ ↦ Hears s c₀)) :
    Triple (Uncommitted req st t₀) (boundary s *> execute s exclusive validate false body)
      (fun _ ↦ Uncommitted req st t₀) (fun _ c ↦ c.store = st) :=
  (Triple.seqRight (boundary_uncommitted s) fun _ ↦ execute_uncommitted s exclusive validate hbody).mono
    (fun _ h ↦ h) (fun _ _ h ↦ h) fun _ _ h ↦ h.store

/-- The repair stage, with the check before it: a stop leaves the store as it was, and a success
commits. -/
theorem stage_repairing_committed :
    Triple (Uncommitted req st t₀)
      (boundary .repairing *> execute .repairing true true true (repairStage : RunStep σ TableStore _))
      (fun _ c ↦ c.stats.CommittedFrom req.scope t₀ st c.store) (fun _ c ↦ c.store = st) :=
  Triple.seqRight ((boundary_uncommitted .repairing).mono (fun _ h ↦ h) (fun _ _ h ↦ h)
    fun _ _ h ↦ h.store) fun _ ↦ execute_repairing_committed.mono (fun _ h ↦ h)
      (fun _ _ h ↦ h.1) fun _ _ h ↦ h

/-- The steps of a run: the stages before repair keep it uncommitted, the repair stage commits,
and the moves to the last stages keep what it did. -/
theorem main_committed (req : RunRequest) (st : TableStore) (t₀ : QTable) (e : Catalog)
    (strategy : StrategyConfig) :
    Triple (Uncommitted req st t₀) (main e strategy : RunStep σ TableStore RunResult)
      (fun r c ↦ r.stats.CommittedFrom req.scope t₀ st c.store) (fun _ c ↦ c.store = st) := by
  unfold main
  refine Triple.bind (publish_keeps (fun _ _ h hc ↦ Uncommitted.moved h hc) _ _ _ _) fun _ ↦ ?_
  refine Triple.bind (Q := fun _ c ↦ c.stats.CommittedFrom req.scope t₀ st c.store) ?_ fun _ ↦ ?_
  · -- three stages keep the run uncommitted, and the repair stage commits
    unfold stages
    refine Triple.forIn_cons (stage_uncommitted .clustering false false
      (clusterStage_hears .clustering)) ?_
    refine Triple.forIn_cons (stage_uncommitted .solving false true (solveStage_hears .solving)) ?_
    refine Triple.forIn_cons (stage_uncommitted .refining true true refineStage_hears) ?_
    exact Triple.forIn_cons stage_repairing_committed Triple.forIn_nil
  · -- the moves to the last stages keep the store and the statistics
    refine Triple.bind (transition_keeps (fun _ _ h hc ↦ CommittedFrom.moved h hc) _ _ _ _) fun _ ↦
      Triple.get_bind fun c₀ hc₀ ↦ ?_
    refine Triple.bind ((transition_keeps (P := fun c ↦ c.store = c₀.store)
      (fun _ _ h hc ↦ by obtain ⟨_, _, rfl⟩ := hc; exact h) _ _ _ _).mono (fun _ h ↦ h ▸ rfl)
      (fun _ _ h ↦ h) fun _ _ h ↦ h) fun _ ↦ Triple.pure_of _ fun _ h ↦ ?_
    rw [h]
    exact hc₀

end RunStep

/-- A run over a shelf that loads `t₀` at the store `st`: a run that fails leaves the store as it
was; a completed run whose repair counted an update saves, and the store takes the save exactly
when `t₀` carries the stored version, which the run then reports. -/
theorem generate_committedFrom {σ : Type} (config : PipelineConfig) (probe : Option MemoryProbe)
    {shelf : TableShelf TableStore} {st : TableStore} {req : RunRequest} {t₀ : QTable}
    (hshelf : shelf.Serves st req.scope t₀) (o : Observer σ) :
    (generate config probe shelf st req o).CommittedFrom req.scope t₀ st := by
  unfold generate
  split
  · rfl
  · rename_i e _
    have hmain := RunStep.main_committed req st t₀ e (config.strategyFor req)
      (RunContext.start config probe shelf st req e (config.strategyFor req) o)
      ⟨rfl, hshelf, rfl, rfl, rfl⟩
    -- a stopped run is described from where it stopped, which keeps the store
    dsimp only
    split <;> rename_i heq <;> rw [heq] at hmain
    · exact hmain
    · rename_i f c
      obtain ⟨_, _, hc⟩ := RunStep.fail_moved f c
      show ((RunStep.fail f).run c).2.store = st
      rw [hc]
      exact hmain

end Timetabling
