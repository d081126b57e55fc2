import Mathlib
import Timetabling.Pipeline.Sharing
import Timetabling.Proofs.Pipeline.Commit
import Timetabling.Proofs.Search.Domain

/-! # Runs sharing the store under the scope lock

Runs of one orchestrator interleave their sections in any order (`Runs.Step`), and the store is
written by nobody else. Three facts hold at every state they reach (`Runs.Sound`): no two runs hold
one lock; a run holding its scope's lock loaded the table stored now, so no save to its scope came
between its load and this moment; and the version of each scope counts the runs that saved to it,
its updates adding theirs.

The lock is what keeps the second fact: two runs whose scopes normalize alike contend for one lock
(`RunRequest.tableLock_eq_iff`), and a save by a run of another scope does not touch the table.
From it, the save a run makes when its repair stage ends is never refused for its version, and
lands at the next version of the stored table (`shared_store_commits`). -/

namespace Timetabling

/-- Two runs contend for one lock exactly when their scopes normalize alike: the lock and the store
name a scope the same way. -/
theorem RunRequest.tableLock_eq_iff {req req' : RunRequest} :
    req.tableLock = req'.tableLock ↔ normalizeScope req.scope = normalizeScope req'.scope :=
  String.append_right_inj "qtable:"

/-- A run holding its lock loads the table it holds, whatever the store. -/
theorem TableStore.shelfLoaded_serves (t : QTable) (st : TableStore) (scope : String) :
    (TableStore.shelfLoaded t).Serves st scope t :=
  ⟨rfl, rfl⟩

/-- The updates a run of `req` that ended with `result` saved to the scope `k`: those its repair
counted, when it completed, reported a save, and its scope is `k` once normalized. -/
def RunRequest.savedTo (req : RunRequest) (result : Except RunFailure RunResult) (k : String) :
    Option Nat :=
  match result with
  | .ok r =>
    if r.stats.qtableSaved ∧ normalizeScope k = normalizeScope req.scope then
      r.stats.repair.map (·.updates)
    else none
  | .error _ => none

/-- A run saves to no scope but its own. -/
theorem RunRequest.savedTo_of_ne {req : RunRequest} {k : String}
    (hk : normalizeScope k ≠ normalizeScope req.scope) (result : Except RunFailure RunResult) :
    req.savedTo result k = none := by
  unfold RunRequest.savedTo
  split
  · rw [if_neg fun h ↦ hk h.2]
  · rfl

section Tally

variable {σ : Type} {out : RunOutcome σ TableStore} {req : RunRequest} {st : TableStore}

/-- A run moves the version of a scope by one exactly when it saved to it. -/
theorem RunOutcome.Committed.version_eq (h : out.Committed req.scope st) (k : String) :
    out.store.version k = st.version k + if (req.savedTo out.result k).isSome then 1 else 0 := by
  unfold RunOutcome.Committed at h
  split at h <;> rename_i heq <;> simp only [heq, RunRequest.savedTo]
  · obtain ⟨s, hrep, hsaved, hst⟩ := h
    by_cases hs : 0 < s.updates
    · rw [if_pos hs] at hst
      simp [hst.version_eq k, hs, hsaved, hrep]
    · rw [if_neg hs] at hst
      simp [hst, hs, hsaved]
  · simp [h]

/-- A run adds to the updates of a scope exactly those it saved to it. -/
theorem RunOutcome.Committed.updates_eq (h : out.Committed req.scope st) (k : String) :
    out.store.updates k = st.updates k + ((req.savedTo out.result k).getD 0 : Nat) := by
  unfold RunOutcome.Committed at h
  split at h <;> rename_i heq <;> simp only [heq, RunRequest.savedTo]
  · obtain ⟨s, hrep, hsaved, hst⟩ := h
    by_cases hs : 0 < s.updates
    · rw [if_pos hs] at hst
      by_cases hk : normalizeScope k = normalizeScope req.scope
      · simp [hst.updates_eq k, hs, hk, hsaved, hrep]
      · simp [hst.updates_eq k, hk]
    · rw [if_neg hs] at hst
      simp [hst, hs, hsaved]
  · simp [h]

end Tally

namespace Runs

variable {σ : Type} {config : PipelineConfig} {st₀ : TableStore} {w w' : Runs σ}

/-- The lock a run holds, if it holds one. -/
def heldLock : RunCall σ × Progress → Option String
  | (l, .holding _) => some l.request.tableLock
  | (_, .waiting) | (_, .ended _) => none

/-- The updates a run that ended saved to the scope `k`. -/
def savedBy (k : String) : RunCall σ × Progress → Option Nat
  | (l, .ended result) => l.request.savedTo result k
  | (_, .waiting) | (_, .holding _) => none

/-- The updates the runs that ended saved to the scope `k`, in the order the runs started. -/
def saves (w : Runs σ) (k : String) : List Nat :=
  w.runs.filterMap (savedBy k)

/-- A lock among those the runs hold is held by one of them. -/
theorem exists_of_mem_heldLock {runs : List (RunCall σ × Progress)} {lock : String}
    (h : lock ∈ runs.filterMap heldLock) :
    ∃ l t, (l, Progress.holding t) ∈ runs ∧ l.request.tableLock = lock := by
  obtain ⟨⟨l, p⟩, hx, hlock⟩ := List.mem_filterMap.mp h
  cases p with
  | holding t => exact ⟨l, t, hx, Option.some.inj hlock⟩
  | waiting | ended _ => cases hlock

/-- A run other than the one a section changes was there before the section. -/
theorem mem_of_mem_around {pre post : List (RunCall σ × Progress)} {x y : RunCall σ × Progress}
    (h : w.runs = pre ++ x :: post) (hy : y ∈ pre ++ post) : y ∈ w.runs := by
  rw [h]
  exact ((List.sublist_cons_self x post).append_left pre).subset hy

/-- A run holding a lock after a section that ended another run is not the one that ended. -/
theorem mem_around_of_ended {pre post : List (RunCall σ × Progress)} {l l' : RunCall σ} {t : QTable}
    {r : Except RunFailure RunResult} (h : (l', Progress.holding t) ∈ pre ++ (l, .ended r) :: post) :
    (l', Progress.holding t) ∈ pre ++ post := by
  simp only [List.mem_append, List.mem_cons, Prod.mk.injEq, reduceCtorEq, and_false, false_or] at h ⊢
  exact h

/-- What holds of runs started on the store `st₀`, whatever the interleaving of their sections. -/
structure Sound (st₀ : TableStore) (w : Runs σ) : Prop where
  /-- No two runs hold one lock. -/
  exclusive : (w.runs.filterMap heldLock).Nodup
  /-- A run holding its lock loaded the table stored now. -/
  current : ∀ l t, (l, Progress.holding t) ∈ w.runs →
    t.version = w.store.version l.request.scope ∧ t.updates = w.store.updates l.request.scope
  /-- The version of each scope counts the runs that saved to it, and its updates add theirs. -/
  tally : ∀ k, w.store.version k = st₀.version k + (w.saves k).length ∧
    w.store.updates k = st₀.updates k + (w.saves k).sum

/-- The end of a run's repair stage, on the store as it is, while the run holds its lock: failing,
the run leaves the store as it is; completing, it reports a save exactly when its repair counted
an update, and then saves once, at the next version of the stored table. -/
theorem Sound.finish_committed (hs : w.Sound st₀) (config : PipelineConfig) {l : RunCall σ}
    {t : QTable} (hl : (l, Progress.holding t) ∈ w.runs) :
    (l.finish config t w.store).Committed l.request.scope w.store :=
  (generate_committedFrom config l.probe (TableStore.shelfLoaded_serves t w.store _)
    l.observer).committed (hs.current l t hl).1 (hs.current l t hl).2

theorem start_sound (hs : w.Sound st₀) (l : RunCall σ) :
    ({ w with runs := w.runs ++ [(l, .waiting)] } : Runs σ).Sound st₀ := by
  refine ⟨?_, fun l' t hl' ↦ ?_, fun k ↦ ?_⟩
  · simpa [List.filterMap_cons, heldLock] using hs.exclusive
  · simp only [List.mem_append, List.mem_singleton, Prod.mk.injEq, reduceCtorEq, and_false,
      or_false] at hl'
    exact hs.current l' t hl'
  · simpa [saves, List.filterMap_cons, savedBy] using hs.tally k

theorem abandon_sound (hs : w.Sound st₀) {pre post : List (RunCall σ × Progress)} {l : RunCall σ}
    (failure : RunFailure) (h : w.runs = pre ++ (l, .waiting) :: post) :
    ({ w with runs := pre ++ (l, .ended (.error failure)) :: post } : Runs σ).Sound st₀ := by
  have hex := hs.exclusive
  have htally := hs.tally
  rw [h] at hex
  simp only [saves, h] at htally
  refine ⟨?_, fun l' t hl' ↦ hs.current l' t (mem_of_mem_around h (mem_around_of_ended hl')),
    fun k ↦ ?_⟩
  · simpa [List.filterMap_cons, heldLock] using hex
  · simpa [saves, List.filterMap_cons, savedBy, RunRequest.savedTo] using htally k

theorem acquire_sound (hs : w.Sound st₀) {pre post : List (RunCall σ × Progress)} {l : RunCall σ}
    (h : w.runs = pre ++ (l, .waiting) :: post) (free : ¬ w.Holds l.request.tableLock) :
    ({ w with runs := pre ++ (l, .holding (w.store.load l.request.scope)) :: post } : Runs σ).Sound
      st₀ := by
  have hex := hs.exclusive
  have htally := hs.tally
  rw [h] at hex
  simp only [saves, h] at htally
  refine ⟨?_, fun l' t hl' ↦ ?_, fun k ↦ ?_⟩
  · -- the lock taken was free, so it is held once
    simp only [List.filterMap_append, List.filterMap_cons, heldLock] at hex ⊢
    refine List.nodup_middle.mpr (List.nodup_cons.mpr ⟨fun hmem ↦ free ?_, hex⟩)
    rw [← List.filterMap_append] at hmem
    obtain ⟨l', t, hl', hlock⟩ := exists_of_mem_heldLock hmem
    exact ⟨l', t, mem_of_mem_around h hl', hlock⟩
  · simp only [List.mem_append, List.mem_cons, Prod.mk.injEq, Progress.holding.injEq] at hl'
    rcases hl' with hl' | ⟨rfl, rfl⟩ | hl'
    · exact hs.current l' t (mem_of_mem_around h (List.mem_append_left _ hl'))
    · -- the run loaded the table stored now
      exact ⟨TableStore.load_version _ _, TableStore.load_updates _ _⟩
    · exact hs.current l' t (mem_of_mem_around h (List.mem_append_right _ hl'))
  · simpa [saves, List.filterMap_cons, savedBy] using htally k

/-- A run that ends its repair stage changes the store only at its own scope, which no other run
holding a lock shares; each scope's version and updates move by what it saved there. -/
theorem release_sound (hs : w.Sound st₀) {pre post : List (RunCall σ × Progress)} {l : RunCall σ}
    {t : QTable} (h : w.runs = pre ++ (l, .holding t) :: post) :
    ({ store := (l.finish config t w.store).store
       runs := pre ++ (l, .ended (l.finish config t w.store).result) :: post } : Runs σ).Sound
      st₀ := by
  have hc := hs.finish_committed config (h ▸ List.mem_append_right _ List.mem_cons_self)
  have hex := hs.exclusive
  rw [h] at hex
  simp only [List.filterMap_append, List.filterMap_cons, heldLock] at hex
  obtain ⟨hlock, hrest⟩ := List.nodup_cons.mp (List.nodup_middle.mp hex)
  refine ⟨?_, fun l' t' hl' ↦ ?_, fun k ↦ ?_⟩
  · simpa [List.filterMap_cons, heldLock] using hrest
  · -- another holder's scope is not this run's, so its table stayed
    have hl'' := mem_around_of_ended hl'
    have hne : normalizeScope l'.request.scope ≠ normalizeScope l.request.scope := by
      intro heq
      rw [← RunRequest.tableLock_eq_iff] at heq
      rw [← List.filterMap_append] at hlock
      exact hlock (List.mem_filterMap.mpr ⟨_, hl'', by rw [heldLock, heq]⟩)
    obtain ⟨hv, hu⟩ := hs.current l' t' (mem_of_mem_around h hl'')
    dsimp only
    rw [hc.version_eq, hc.updates_eq, RunRequest.savedTo_of_ne hne]
    simpa using ⟨hv, hu⟩
  · obtain ⟨hv, hu⟩ := hs.tally k
    simp only [saves, h, List.filterMap_append, List.filterMap_cons, savedBy] at hv hu ⊢
    rw [hc.version_eq k, hc.updates_eq k, hv, hu]
    cases l.request.savedTo (l.finish config t w.store).result k with
    | none => simp
    | some n =>
      simp
      omega

/-- The store changes only when a run holding its lock ends its repair stage, to the store that
run leaves. -/
theorem Step.store_eq (h : Step config w w') :
    w'.store = w.store ∨
      ∃ l t, (l, Progress.holding t) ∈ w.runs ∧ w'.store = (l.finish config t w.store).store := by
  cases h with
  | start | abandon | acquire => exact .inl rfl
  | release h => exact .inr ⟨_, _, h ▸ List.mem_append_right _ List.mem_cons_self, rfl⟩

/-- Each section keeps what holds of the runs. -/
theorem Sound.step (hs : w.Sound st₀) (h : Step config w w') : w'.Sound st₀ := by
  cases h with
  | start l => exact start_sound hs l
  | abandon failure h => exact abandon_sound hs failure h
  | acquire h free => exact acquire_sound hs h free
  | release h => exact release_sound hs h

/-- Runs start on a store no run touched. -/
theorem sound_init : ({ store := st₀ } : Runs σ).Sound st₀ :=
  ⟨List.nodup_nil, fun _ _ h ↦ absurd h List.not_mem_nil, fun _ ↦ by simp [saves]⟩

theorem Reachable.sound (hw : w.Reachable config st₀) : w.Sound st₀ := by
  induction hw with
  | init => exact sound_init
  | step _ h ih => exact ih.step h

end Runs

/-- The commit discipline of runs sharing the in-memory store, for every interleaving of their
sections. A run holding its scope's lock ends its repair stage on the store as it is then: failing,
it leaves the store as it is; completing, it reports a save exactly when its repair counted an
update, and then saves once, with no version conflict, at the next version of the stored table.
No other section changes the store. At every moment, the version of each scope counts the runs
that saved to it, and its updates add the updates those runs counted. -/
theorem shared_store_commits {σ : Type} (config : PipelineConfig) (st₀ : TableStore) {w : Runs σ}
    (hw : w.Reachable config st₀) :
    (∀ l t, (l, Progress.holding t) ∈ w.runs →
      (l.finish config t w.store).Committed l.request.scope w.store) ∧
    (∀ w', Runs.Step config w w' → w'.store = w.store ∨
      ∃ l t, (l, Progress.holding t) ∈ w.runs ∧ w'.store = (l.finish config t w.store).store) ∧
    ∀ k, w.store.version k = st₀.version k + (w.saves k).length ∧
      w.store.updates k = st₀.updates k + (w.saves k).sum :=
  ⟨fun _ _ hl ↦ hw.sound.finish_committed config hl, fun _ h ↦ h.store_eq, hw.sound.tally⟩

/-- A run of the catalog `e` for the scope `scope`, with no memory monitor and an observer that
never stops it. -/
def callOn (e : Catalog) (scope : String) : RunCall Unit :=
  ⟨none, { catalog := some e, scope }, ⟨(), fun s _ ↦ s, fun _ ↦ false⟩⟩

/-- Three runs on an empty store: two for one scope written two ways, and one for another. The
first took its lock and ended its repair stage while the third held its own lock; the second then
took the lock the first let go. -/
def threeRuns (e : Catalog) : Runs Unit :=
  let done := (callOn e "Physics").finish .oneCommunityUntimed (({} : TableStore).load "Physics") {}
  { store := done.store
    runs := [(callOn e "Physics", .ended done.result),
      (callOn e " physics ", .holding (done.store.load " physics ")),
      (callOn e "chemistry", .holding (({} : TableStore).load "chemistry"))] }

theorem reachable_threeRuns (e : Catalog) : (threeRuns e).Reachable .oneCommunityUntimed {} := by
  have hpc : normalizeScope "Physics" ≠ normalizeScope "chemistry" := by decide +kernel
  have hcp : normalizeScope " physics " ≠ normalizeScope "chemistry" := by decide +kernel
  -- the three start, the first and the third take their locks, the first lets its go, and the
  -- second takes it
  refine .step (.step (.step (.step (.step (.step (.step .init (.start (callOn e "Physics")))
    (.start (callOn e " physics "))) (.start (callOn e "chemistry")))
    (.acquire (show _ = [] ++ _ :: _ from rfl) ?_)) (.acquire (show _ = [_, _] ++ _ :: [] from rfl) ?_))
    (.release (show _ = [] ++ _ :: _ from rfl))) (.acquire (show _ = [_] ++ _ :: _ from rfl) ?_)
  · simp [Runs.Holds]
  · simp [Runs.Holds, callOn, RunRequest.tableLock, hpc]
  · simp [Runs.Holds, callOn, RunRequest.tableLock, Ne.symm hcp]

/-- The commit discipline at three runs, two of which hold a lock at once while the third has ended
its repair stage; two of the runs are for one scope written two ways, and so took one lock. -/
theorem shared_store_commits_threeRuns :
    ∃ e, Catalog.build Domain.singleRecords = .ok e ∧
      (threeRuns e).Reachable .oneCommunityUntimed {} ∧
      (callOn e "Physics").request.tableLock = (callOn e " physics ").request.tableLock ∧
      ((∀ l t, (l, Progress.holding t) ∈ (threeRuns e).runs →
        (l.finish .oneCommunityUntimed t (threeRuns e).store).Committed l.request.scope
          (threeRuns e).store) ∧
      (∀ w', Runs.Step .oneCommunityUntimed (threeRuns e) w' → w'.store = (threeRuns e).store ∨
        ∃ l t, (l, Progress.holding t) ∈ (threeRuns e).runs ∧
          w'.store = (l.finish .oneCommunityUntimed t (threeRuns e).store).store) ∧
      ∀ k, (threeRuns e).store.version k = ({} : TableStore).version k + ((threeRuns e).saves k).length ∧
        (threeRuns e).store.updates k = ({} : TableStore).updates k + ((threeRuns e).saves k).sum) := by
  obtain ⟨e, hb, -⟩ := Domain.build_singleRecords
  refine ⟨e, hb, reachable_threeRuns e, ?_,
    shared_store_commits .oneCommunityUntimed {} (reachable_threeRuns e)⟩
  rw [RunRequest.tableLock_eq_iff]
  show normalizeScope "Physics" = normalizeScope " physics "
  decide +kernel

end Timetabling
