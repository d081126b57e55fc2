import Timetabling.Repair.Clients

/-! # Optimistic versions of shared Q-tables

A table store keeps one table per normalized scope and accepts a save only from a table carrying
the version stored for that scope (zero when none is stored), bumping it by one. This file states
what each call of a client does to the store and to the client's table, and what follows for any
interleaving of the calls of any number of clients:

* the stored version of a scope moves only by a successful save to it, by one each time
  (`version_run`), so it never goes down (`version_le_run`);
* after a save of version `v` succeeds, no later save of a table of version `v` to that scope
  does (`not_both_saved`): of two clients holding tables of one version, at most one saves.

Both may be refused: a third client's save in between moves the stored version past theirs
(`concurrent_saves_both_refused`). -/

namespace Timetabling

namespace QTable

@[simp] theorem copy_version (q : QTable) : q.copy.version = q.version := rfl

@[simp] theorem copy_updates (q : QTable) : q.copy.updates = q.updates := rfl

@[simp] theorem copy_rows (q : QTable) : q.copy.rows = q.rows := rfl

/-- Training one of the four moves never faults; it keeps the table's version and counts one
more update. -/
theorem update_move {q : QTable} (s : Situation) (m : Move) (reward maxNext alpha gamma : Float) :
    ∃ q', q.update s m.index reward maxNext alpha gamma = .ok q' ∧ q'.version = q.version ∧
      q'.updates = q.updates + 1 := by
  have hsize : (fixedRow q.rows[s.key]?).size = moveCount := by
    unfold fixedRow
    split
    · split
      · exact beq_iff_eq.mp ‹_›
      · simp
    · simp
  have hm : m.index < moveCount := by cases m <;> decide
  have hneg : ¬ ((m.index : Int) < 0) := by omega
  unfold update
  simp only [hneg, if_false, Int.toNat_natCast, hsize, hm, dif_pos]
  exact ⟨_, rfl, rfl, rfl⟩

end QTable

namespace TableStore

variable {st st' : TableStore} {scope s : String} {q q' : QTable}

@[simp] theorem save_none : st.save scope none = .error .noTable := rfl

/-- A save succeeds exactly when the table carries the stored version, and then stores a copy of
the table with its version bumped. -/
theorem save_some (st : TableStore) (scope : String) (q : QTable) :
    st.save scope (some q) =
      if q.version = st.version scope then
        .ok ({ q with version := q.version + 1 },
          ⟨st.tables.insert (normalizeScope scope) { q with version := q.version + 1 }.copy⟩)
      else .error (.versionConflict (normalizeScope scope) (st.version scope) q.version) := by
  unfold save version
  by_cases h : q.version = ((st.tables[normalizeScope scope]?).map (·.version)).getD 0
  · simp [h]
  · simp [h, Ne.symm h]

theorem save_eq_ok_iff :
    st.save scope (some q) = .ok (q', st') ↔
      q.version = st.version scope ∧ q' = { q with version := q.version + 1 } ∧
        st' = ⟨st.tables.insert (normalizeScope scope) q'.copy⟩ := by
  rw [save_some]
  by_cases h : q.version = st.version scope
  · simp only [h, if_true, Except.ok.injEq, Prod.mk.injEq, true_and]
    constructor
    · rintro ⟨rfl, rfl⟩
      exact ⟨rfl, rfl⟩
    · rintro ⟨rfl, rfl⟩
      exact ⟨rfl, rfl⟩
  · simp [h]

/-- The version a store keeps for a scope after a table is put under a normalized scope. -/
theorem version_insert (st : TableStore) (scope s : String) (q : QTable) :
    (⟨st.tables.insert (normalizeScope scope) q⟩ : TableStore).version s =
      if normalizeScope s = normalizeScope scope then q.version else st.version s := by
  unfold version
  rw [Std.HashMap.getElem?_insert]
  by_cases h : normalizeScope s = normalizeScope scope
  · simp [h]
  · simp [h, Ne.symm h]

/-- What a load finds right after a table is put under the load's scope. -/
theorem load_insert (st : TableStore) (scope : String) (q : QTable) :
    (⟨st.tables.insert (normalizeScope scope) q⟩ : TableStore).load scope = q.copy := by
  simp [load]

/-- The stored version of a scope depends only on its normalized name. -/
theorem version_congr {s s' : String} (h : normalizeScope s = normalizeScope s') :
    st.version s = st.version s' := by
  simp [version, h]

/-- A load answers a copy of the stored table, or an empty table. -/
theorem load_eq (st : TableStore) (scope : String) :
    st.load scope = ((st.tables[normalizeScope scope]?).map QTable.copy).getD {} := by
  unfold load
  cases st.tables[normalizeScope scope]? <;> rfl

/-- A load answers a table of the stored version, zero when nothing is stored. -/
theorem load_version (st : TableStore) (scope : String) : (st.load scope).version = st.version scope := by
  unfold load version
  cases st.tables[normalizeScope scope]? <;> rfl

end TableStore

/-- Whether a call, with its answer, is a save that succeeded to a scope normalized as `s` is. -/
def TableCall.savedTo (s : String) : TableCall → Option (Except SaveError Unit) → Bool
  | .save _ scope, some (.ok ()) => normalizeScope scope == normalizeScope s
  | _, _ => false

namespace TableClients

variable {w : TableClients} {c c' : Nat} {q : QTable}

@[simp] theorem hold_store : (w.hold c q).store = w.store := rfl

@[simp] theorem hold_self : (w.hold c q).hands c = some q := by simp [hold]

theorem hold_of_ne (h : c' ≠ c) : (w.hold c q).hands c' = w.hands c' := by simp [hold, h]

/-- A save by a client holding no table is refused and changes nothing. -/
theorem call_save_of_none (h : w.hands c = none) (scope : String) :
    w.call (.save c scope) = (w, some (.error .noTable)) := by
  simp [call, h]

/-- A save of a table of the stored version succeeds: the client's table and the store's copy of
it carry the next version. -/
theorem call_save_of_eq (h : w.hands c = some q) {scope : String}
    (hv : q.version = w.store.version scope) :
    w.call (.save c scope) =
      ({ w.hold c { q with version := q.version + 1 } with
          store := ⟨w.store.tables.insert (normalizeScope scope) { q with version := q.version + 1 }.copy⟩ },
        some (.ok ())) := by
  simp [call, h, TableStore.save_some, hv]

/-- A save of a table of another version is refused and changes nothing. -/
theorem call_save_of_ne (h : w.hands c = some q) {scope : String}
    (hv : q.version ≠ w.store.version scope) :
    w.call (.save c scope) =
      (w, some (.error (.versionConflict (normalizeScope scope) (w.store.version scope) q.version))) := by
  simp [call, h, TableStore.save_some, hv]

/-- A save succeeds exactly when its client holds a table of the version stored for the scope. -/
theorem call_save_ok_iff (w : TableClients) (c : Nat) (scope : String) :
    (w.call (.save c scope)).2 = some (.ok ()) ↔
      ∃ q, w.hands c = some q ∧ q.version = w.store.version scope := by
  cases h : w.hands c with
  | none => simp [call_save_of_none h]
  | some q =>
    by_cases hv : q.version = w.store.version scope
    · simp [call_save_of_eq h hv, hv]
    · simp [call_save_of_ne h hv, hv]

/-- A refused save changes neither the store nor any client's table. -/
theorem call_save_of_refused {scope : String} (h : (w.call (.save c scope)).2 ≠ some (.ok ())) :
    (w.call (.save c scope)).1 = w := by
  cases hc : w.hands c with
  | none => simp [call_save_of_none hc]
  | some q =>
    by_cases hv : q.version = w.store.version scope
    · simp [call_save_of_eq hc hv] at h
    · simp [call_save_of_ne hc hv]

/-- A load puts a copy of the stored table, or an empty table, in its client's hand, and changes
nothing else. -/
theorem call_load (w : TableClients) (c : Nat) (scope : String) :
    w.call (.load c scope) = (w.hold c (w.store.load scope), none) := rfl

/-- Training changes only the trainer's table, and keeps its version. -/
theorem call_train (w : TableClients) (c : Nat) (s : Situation) (m : Move) (reward maxNext alpha gamma : Float) :
    (w.call (.train c s m reward maxNext alpha gamma)).1.store = w.store ∧
      (w.call (.train c s m reward maxNext alpha gamma)).2 = none ∧
      ((w.call (.train c s m reward maxNext alpha gamma)).1.hands c).map (·.version) =
        (w.hands c).map (·.version) ∧
      ∀ c' ≠ c, (w.call (.train c s m reward maxNext alpha gamma)).1.hands c' = w.hands c' := by
  cases h : w.hands c with
  | none => simp [call, h]
  | some q =>
    obtain ⟨q', hq', hv, -⟩ := QTable.update_move (q := q) s m reward maxNext alpha gamma
    simp only [call, h, hq', hold_store, hold_self, Option.map_some, hv, true_and]
    exact fun c' hc' ↦ hold_of_ne hc'

/-- One call moves the stored version of a scope by one exactly when it is a successful save to
that scope. -/
theorem version_call (w : TableClients) (call : TableCall) (s : String) :
    (w.call call).1.store.version s =
      w.store.version s + if call.savedTo s (w.call call).2 then 1 else 0 := by
  cases call with
  | load c scope => simp [call_load, TableCall.savedTo]
  | train c sit m reward maxNext alpha gamma =>
    simp [(call_train w c sit m reward maxNext alpha gamma).1, TableCall.savedTo]
  | save c scope =>
    cases h : w.hands c with
    | none => simp [call_save_of_none h, TableCall.savedTo]
    | some q =>
      by_cases hv : q.version = w.store.version scope
      · rw [call_save_of_eq h hv]
        simp only [TableStore.version_insert, QTable.copy_version, TableCall.savedTo]
        by_cases hs : normalizeScope s = normalizeScope scope
        · simp [hs, hv, TableStore.version_congr hs]
        · simp [hs, Ne.symm hs]
      · simp [call_save_of_ne h hv, TableCall.savedTo]

@[simp] theorem run_nil (w : TableClients) : w.run [] = (w, []) := rfl

theorem run_cons (w : TableClients) (call : TableCall) (calls : List TableCall) :
    w.run (call :: calls) =
      (((w.call call).1.run calls).1, (w.call call).2 :: ((w.call call).1.run calls).2) := rfl

/-- The number of successful saves to a scope (as normalized) in a run of calls. -/
def savedCount (w : TableClients) (calls : List TableCall) (s : String) : Nat :=
  ((calls.zip (w.run calls).2).filter fun (call, answer) => call.savedTo s answer).length

theorem savedCount_cons (w : TableClients) (call : TableCall) (calls : List TableCall) (s : String) :
    w.savedCount (call :: calls) s =
      (if call.savedTo s (w.call call).2 then 1 else 0) + (w.call call).1.savedCount calls s := by
  unfold savedCount
  rw [run_cons, List.zip_cons_cons, List.filter_cons]
  by_cases h : call.savedTo s (w.call call).2
  · simp [h, Nat.add_comm]
  · simp [h]

/-- Over a run, the stored version of a scope grows by the number of successful saves to it. -/
theorem version_run (w : TableClients) (calls : List TableCall) (s : String) :
    (w.run calls).1.store.version s = w.store.version s + w.savedCount calls s := by
  induction calls generalizing w with
  | nil => simp [savedCount]
  | cons call calls ih =>
    rw [run_cons, ih, version_call, savedCount_cons]
    by_cases h : call.savedTo s (w.call call).2
    · simp only [h, if_true]
      omega
    · simp only [h, Bool.false_eq_true, if_false]
      omega

/-- A stored version never goes down. -/
theorem version_le_run (w : TableClients) (calls : List TableCall) (s : String) :
    w.store.version s ≤ (w.run calls).1.store.version s := by
  rw [version_run]
  omega

/-- Once a save of a table of version `v` has succeeded, a later save of a table of version `v` to
a scope normalized the same way is refused, whatever was called in between: of two clients
holding tables of one version, at most one saves. -/
theorem not_both_saved {w₁ w₂ : TableClients} {a b : Nat} {sa sb : String} {qa qb : QTable}
    (ha : w₁.hands a = some qa) (hx : w₁.call (.save a sa) = (w₂, some (.ok ())))
    (mid : List TableCall) (hb : (w₂.run mid).1.hands b = some qb)
    (hs : normalizeScope sa = normalizeScope sb) (hv : qb.version = qa.version) :
    ((w₂.run mid).1.call (.save b sb)).2 ≠ some (.ok ()) := by
  intro hy
  obtain ⟨qa', ha', hva⟩ := (call_save_ok_iff w₁ a sa).mp (by rw [hx])
  obtain ⟨qb', hb', hvb⟩ := (call_save_ok_iff _ b sb).mp hy
  rw [ha] at ha'
  rw [hb] at hb'
  cases ha'
  cases hb'
  -- the save of `a` bumped the stored version past `v`, and it never came back down
  have hbump : w₂.store.version sa = qa.version + 1 := by
    have h := version_call w₁ (.save a sa) sa
    simp only [hx, TableCall.savedTo, beq_self_eq_true, if_true] at h
    omega
  have hmono := version_le_run w₂ mid sb
  rw [← TableStore.version_congr hs, hbump] at hmono
  omega

/-- The versioning discipline of a shared table store, for every state of the store and of the
clients' hands and every interleaving of their calls: a save succeeds exactly when its client holds
a table of the stored version, and then bumps that table and the stored version by one and stores a
copy of the table, which nothing done to the client's table afterwards reaches; a refused save
changes nothing; a load answers a copy of the stored table or an empty one; stored versions move
only by one per successful save; and of two saves of tables of one version to one scope, at most
one succeeds. -/
theorem optimistic_versioning :
    (∀ (w : TableClients) c scope, (w.call (.save c scope)).2 = some (.ok ()) ↔
        ∃ q, w.hands c = some q ∧ q.version = w.store.version scope) ∧
    (∀ (w : TableClients) c scope q, w.hands c = some q → q.version = w.store.version scope →
        (w.call (.save c scope)).1.hands c = some { q with version := q.version + 1 } ∧
        (∀ s, (w.call (.save c scope)).1.store.version s =
          if normalizeScope s = normalizeScope scope then w.store.version s + 1 else w.store.version s) ∧
        (w.call (.save c scope)).1.store.load scope = { q with version := q.version + 1 }.copy) ∧
    (∀ (w : TableClients) c scope, (w.call (.save c scope)).2 ≠ some (.ok ()) →
        (w.call (.save c scope)).1 = w) ∧
    (∀ (w : TableClients) c scope, (w.call (.load c scope)).1.hands c =
        some (((w.store.tables[normalizeScope scope]?).map QTable.copy).getD {})) ∧
    (∀ (w : TableClients) c s m reward maxNext alpha gamma,
        (w.call (.train c s m reward maxNext alpha gamma)).1.store = w.store) ∧
    (∀ (w : TableClients) calls s,
        (w.run calls).1.store.version s = w.store.version s + w.savedCount calls s) ∧
    (∀ (w₁ w₂ : TableClients) a b sa sb qa qb mid, w₁.hands a = some qa →
        w₁.call (.save a sa) = (w₂, some (.ok ())) → (w₂.run mid).1.hands b = some qb →
        normalizeScope sa = normalizeScope sb → qb.version = qa.version →
        ((w₂.run mid).1.call (.save b sb)).2 ≠ some (.ok ())) := by
  refine ⟨call_save_ok_iff, fun w c scope q h hv ↦ ?_, fun _ _ _ h ↦ call_save_of_refused h,
    fun w c scope ↦ by simp [call_load, TableStore.load_eq],
    fun w c s m reward maxNext alpha gamma ↦ (call_train w c s m reward maxNext alpha gamma).1,
    version_run, fun _ _ _ _ _ _ _ _ mid ha hx hb hs hv ↦ not_both_saved ha hx mid hb hs hv⟩
  rw [call_save_of_eq h hv]
  refine ⟨hold_self, fun s ↦ ?_, TableStore.load_insert _ _ _⟩
  simp only [TableStore.version_insert, QTable.copy_version]
  by_cases hs : normalizeScope s = normalizeScope scope
  · simp [hs, hv, TableStore.version_congr hs]
  · simp [hs]

/-- Three clients load one scope of an empty store, so the first two hold empty tables of version
zero; the third saves first, and then the saves of the first two are both refused. -/
theorem concurrent_saves_both_refused :
    let loads := [TableCall.load 0 "s", .load 1 "s", .load 2 "s"]
    (({} : TableClients).run loads).1.hands 0 = some {} ∧
      (({} : TableClients).run loads).1.hands 1 = some {} ∧
      (({} : TableClients).run (loads ++ [.save 2 "s", .save 0 "s", .save 1 "s"])).2 =
        [none, none, none, some (.ok ()),
          some (.error (.versionConflict (normalizeScope "s") 1 0)),
          some (.error (.versionConflict (normalizeScope "s") 1 0))] := by
  simp [run_cons, call, hold, TableStore.load, TableStore.save_some, TableStore.version]

end TableClients

end Timetabling
