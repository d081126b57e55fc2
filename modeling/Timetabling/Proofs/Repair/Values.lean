import Timetabling.Proofs.Number.Order
import Timetabling.Repair.Moves
import Timetabling.Repair.QTable

/-! # Reading and training learned values

A table's row for a situation may come from storage with any number of entries. Reading a move's
value (`QTable.value`) takes the entry, or zero past the row or for an unknown situation; the
best move (`QTable.best`) scans the first four columns of the row and keeps the first entry that
no later one exceeds; training (`QTable.update`) first pads or cuts the row to four entries.

* `best_spec`: the best move is one of the four, its value is the value read for it, no move the
  row covers is worth more, and every earlier move is worth less. Floats are compared as IEEE 754
  says, so "worth more" is `<` and a `NaN` is worth neither more nor less than anything. A row
  shorter than four leaves the moves past its end out of the scan, although reading them gives
  zero.
* `update_spec`: training never faults on one of the four moves; it steps that move's value
  toward its target, leaves every other value of every situation with another key as it was,
  and leaves the row with four entries.
* `best_agrees_and_update_is_local` puts the two together; `update_shares_joined_keys` shows that
  locality holds per key and not per situation, since a key joins the situation's three names
  with `|`.
* `best_is_argmax_and_update_is_local`: where the situation has no row or a row of four or more
  entries, the best move is the first one of greatest value among all four.
  `best_misses_moves_past_short_row` shows that a shorter row breaks this: with the row `[-5]`
  the best move is move 0 at `-5`, while move 1 reads zero. -/

namespace Timetabling

namespace Move

theorem index_inj {a b : Move} : a.index = b.index ↔ a = b := by
  cases a <;> cases b <;> simp [index]

theorem index_lt (m : Move) : m.index < moveCount := by
  cases m <;> decide

theorem index_ofIndex {i : Nat} (h : i < moveCount) : (ofIndex i).index = i := by
  match i, h with
  | 0, _ => rfl
  | 1, _ => rfl
  | 2, _ => rfl
  | 3, _ => rfl

end Move

namespace QTable

/-- The value of column `i` in a situation as a plain number: the row's entry, or zero for an
unknown situation or a column past the row. -/
def entry (q : QTable) (s : Situation) (i : Nat) : Float :=
  ((q.rows[s.key]?).bind (·[i]?)).getD 0

/-- Whether the row of a situation, if there is one, has an entry in column `i`. -/
def Covers (q : QTable) (s : Situation) (i : Nat) : Prop :=
  ∀ row, q.rows[s.key]? = some row → i < row.size

@[simp] theorem entry_empty (s : Situation) (i : Nat) : ({} : QTable).entry s i = 0 := by
  simp [entry, rows]

@[simp] theorem rows_some (v u : Int) (m : Std.HashMap String (Array Float)) :
    ({ version := v, values := some m, updates := u } : QTable).rows = m := rfl

/-- Reading a column never faults. -/
theorem value_natCast (q : QTable) (s : Situation) (i : Nat) : q.value s i = .ok (q.entry s i) := by
  unfold value entry
  cases h : q.rows[s.key]? with
  | none => rfl
  | some row =>
    simp only [Option.bind_some]
    by_cases hi : i < row.size
    · have : ¬ ((i : Int) ≥ row.size) := by omega
      simp [this, hi]
    · have : (i : Int) ≥ row.size := by omega
      simp [this, hi]

/-! ## The best move -/

/-- One column of the scan for the best move. -/
def bestStep (row : Array Float) (acc : Nat × Float) (i : Nat) : Nat × Float :=
  match row[i]? with
  | some x => if i == 0 || x > acc.2 then (i, x) else acc
  | none => acc

theorem bestStep_of_none {row : Array Float} {k : Nat} (acc : Nat × Float) (hk : row[k]? = none) :
    bestStep row acc k = acc := by
  simp [bestStep, hk]

theorem bestStep_of_some {row : Array Float} {k : Nat} {x : Float} (acc : Nat × Float)
    (hk : row[k]? = some x) : bestStep row acc k = if k = 0 ∨ acc.2 < x then (k, x) else acc := by
  simp [bestStep, hk]

theorem best_eq (q : QTable) (s : Situation) :
    q.best s = match q.rows[s.key]? with
      | none => (0, 0)
      | some row => (List.range moveCount).foldl (bestStep row) (0, 0) := rfl

/-- What the scan of the first `k` columns of a row knows of its answer `acc`: with nothing seen
it is move 0 at zero; otherwise it is an entry seen, no entry seen is greater, and no entry before
it is as great. -/
structure Scanned (row : Array Float) (k : Nat) (acc : Nat × Float) : Prop where
  unseen : k = 0 ∨ row.size = 0 → acc = (0, 0)
  seen : 0 < k → 0 < row.size → acc.1 < k ∧ row[acc.1]? = some acc.2
  top : ∀ j < k, ∀ x, row[j]? = some x → ¬ acc.2 < x
  first : ∀ j < acc.1, ∀ x, row[j]? = some x → ¬ acc.2 ≤ x

namespace Scanned

variable {row : Array Float} {k : Nat} {acc : Nat × Float} {x : Float}

theorem zero (row : Array Float) : Scanned row 0 (0, 0) where
  unseen _ := rfl
  seen h := absurd h (Nat.lt_irrefl 0)
  top _ h := absurd h (Nat.not_lt_zero _)
  first _ h := absurd h (Nat.not_lt_zero _)

/-- A column past the row changes nothing. -/
theorem skip (h : Scanned row k acc) (hk : row.size ≤ k) : Scanned row (k + 1) acc where
  unseen _ := h.unseen (by omega)
  seen _ hs := ⟨by have := (h.seen (by omega) hs).1; omega, (h.seen (by omega) hs).2⟩
  top j hj y hy := by
    rcases Nat.lt_succ_iff_lt_or_eq.mp hj with hj | rfl
    · exact h.top j hj y hy
    · simp [Array.getElem?_eq_none hk] at hy
  first := h.first

/-- A later entry no greater than the best so far leaves it. -/
theorem keep (h : Scanned row k acc) (hk : row[k]? = some x) (h0 : k ≠ 0) (hx : ¬ acc.2 < x) :
    Scanned row (k + 1) acc where
  unseen _ := by
    have : k < row.size := (Array.getElem?_eq_some_iff.mp hk).1
    omega
  seen _ hs := ⟨by have := (h.seen (by omega) hs).1; omega, (h.seen (by omega) hs).2⟩
  top j hj y hy := by
    rcases Nat.lt_succ_iff_lt_or_eq.mp hj with hj | rfl
    · exact h.top j hj y hy
    · rw [hk] at hy
      cases hy
      exact hx
  first := h.first

/-- The first entry, or one greater than the best so far, takes its place. -/
theorem take (h : Scanned row k acc) (hk : row[k]? = some x) (hx : k = 0 ∨ acc.2 < x) :
    Scanned row (k + 1) (k, x) where
  unseen _ := by
    have : k < row.size := (Array.getElem?_eq_some_iff.mp hk).1
    omega
  seen _ _ := ⟨Nat.lt_succ_self k, hk⟩
  top j hj y hy := by
    rcases Nat.lt_succ_iff_lt_or_eq.mp hj with hj | rfl
    · -- an earlier entry is no greater than the old best, which is below `x`
      have hlt : acc.2 < x := hx.resolve_left (by omega)
      exact fun hxy ↦ h.top j hj y hy (Float.lt_trans hlt hxy)
    · rw [hk] at hy
      cases hy
      exact Float.lt_irrefl x
  first j hj y hy := by
    have hlt : acc.2 < x := hx.resolve_left (by omega)
    exact fun hxy ↦ h.top j hj y hy (Float.lt_of_lt_of_le hlt hxy)

theorem step (h : Scanned row k acc) : Scanned row (k + 1) (bestStep row acc k) := by
  cases hk : row[k]? with
  | none =>
    rw [bestStep_of_none acc hk]
    exact h.skip (by simpa using hk)
  | some x =>
    rw [bestStep_of_some acc hk]
    split
    · exact h.take hk ‹_›
    · rename_i hx
      exact h.keep hk (fun h0 ↦ hx (.inl h0)) (fun hlt ↦ hx (.inr hlt))

theorem foldl (row : Array Float) (n : Nat) :
    Scanned row n ((List.range n).foldl (bestStep row) (0, 0)) := by
  induction n with
  | zero => exact zero row
  | succ n ih =>
    rw [List.range_succ, List.foldl_append, List.foldl_cons, List.foldl_nil]
    exact ih.step

end Scanned

/-- The best move is one of the four and its value is the one read for it; no move the row covers
is worth more, and every earlier move is worth less. -/
theorem best_spec (q : QTable) (s : Situation) :
    (q.best s).1 < moveCount ∧ q.entry s (q.best s).1 = (q.best s).2 ∧
      (∀ j < moveCount, q.Covers s j → ¬ (q.best s).2 < q.entry s j) ∧
      ∀ j < (q.best s).1, ¬ (q.best s).2 ≤ q.entry s j := by
  unfold Covers entry
  rw [best_eq]
  cases hrow : q.rows[s.key]? with
  | none =>
    exact ⟨by decide, rfl, fun _ _ _ ↦ Float.lt_irrefl 0, fun j hj ↦ absurd hj (Nat.not_lt_zero j)⟩
  | some row =>
    simp only [Option.bind_some, Option.some.injEq, forall_eq']
    have h := Scanned.foldl row moveCount
    generalize (List.range moveCount).foldl (bestStep row) (0, 0) = acc at h ⊢
    by_cases hs : row.size = 0
    · -- an empty row leaves move 0 at zero
      obtain rfl := h.unseen (.inr hs)
      exact ⟨by decide, by simp [hs], fun j _ hj ↦ absurd hj (by omega),
        fun j hj ↦ absurd hj (Nat.not_lt_zero j)⟩
    · obtain ⟨hlt, hget⟩ := h.seen (by decide) (by omega)
      refine ⟨hlt, by simp [hget], fun j hj hcov ↦ ?_, fun j hj ↦ ?_⟩
      · rw [Array.getElem?_eq_getElem hcov, Option.getD_some]
        exact h.top j hj _ (Array.getElem?_eq_getElem hcov)
      · have hj' : j < row.size := by
          have := (Array.getElem?_eq_some_iff.mp hget).1
          omega
        rw [Array.getElem?_eq_getElem hj', Option.getD_some]
        exact h.first j hj _ (Array.getElem?_eq_getElem hj')

/-! ## Training -/

theorem fixedRow_size (r : Option (Array Float)) : (fixedRow r).size = moveCount := by
  unfold fixedRow
  split
  · split
    · exact beq_iff_eq.mp ‹_›
    · simp
  · simp

/-- Padding or cutting a row keeps the value read in each of the four columns. -/
theorem getElem?_fixedRow (r : Option (Array Float)) {j : Nat} (hj : j < moveCount) :
    (fixedRow r)[j]? = some ((r.bind (·[j]?)).getD 0) := by
  unfold fixedRow
  cases r with
  | none => simp [hj]
  | some row =>
    simp only [Option.bind_some]
    split
    · -- a row of four entries is kept as it is
      rename_i hsize
      have : j < row.size := by rw [beq_iff_eq.mp hsize]; exact hj
      simp [this]
    · simp [hj]

/-- Training a move never faults: it replaces the situation's row by its four-entry form with the
move's value stepped toward the target, keeps the version, and counts one more update. -/
theorem update_spec (q : QTable) (s : Situation) (a : Move) (reward maxNext alpha gamma : Float) :
    ∃ q', q.update s a.index reward maxNext alpha gamma = .ok q' ∧ q'.updates = q.updates + 1 ∧
      q'.version = q.version ∧ q'.rows[s.key]?.map Array.size = some moveCount ∧
      ∀ (s' : Situation) (m : Move), q'.entry s' m.index =
        if s'.key = s.key ∧ m = a then
          q.entry s a.index + alpha * (reward + gamma * maxNext - q.entry s a.index)
        else q.entry s' m.index := by
  have hsize := fixedRow_size q.rows[s.key]?
  have ha : a.index < moveCount := a.index_lt
  have hneg : ¬ ((a.index : Int) < 0) := by omega
  have hold : (fixedRow q.rows[s.key]?)[a.index] = q.entry s a.index := by
    have := getElem?_fixedRow q.rows[s.key]? ha
    rw [Array.getElem?_eq_getElem (by omega)] at this
    exact Option.some.inj this
  unfold update
  simp only [hneg, if_false, Int.toNat_natCast, hsize, ha, dif_pos, hold]
  refine ⟨_, rfl, rfl, rfl, by simp [hsize], fun s' m ↦ ?_⟩
  simp only [entry, rows_some, Std.HashMap.getElem?_insert, beq_iff_eq]
  by_cases hkey : s.key = s'.key
  · -- the trained row: the move set, every other column as it was read before
    simp only [hkey, if_true, true_and, Option.bind_some, Array.getElem?_set, Move.index_inj]
    by_cases hm : a = m
    · subst hm
      simp
    · simp only [hm, if_false, Ne.symm hm]
      rw [getElem?_fixedRow _ m.index_lt, ← hkey]
      rfl
  · simp [hkey, Ne.symm hkey]

/-! ## Best agrees with the values read, and training is local -/

/-- The best move of a situation is one of the four, its value is the value read for it, no move
the row covers is worth more (every move, when the situation has no row or a row of four or more
entries), and every earlier move is worth less. Training one of the four moves never faults; it
steps that move's value from `old` to `old + alpha * (reward + gamma * maxNext - old)`, leaves the
value of every other move, and of every move of a situation with another key, as it was, leaves
the row with exactly four entries, and counts one more update. -/
theorem best_agrees_and_update_is_local (q : QTable) (s : Situation) (a : Move)
    (reward maxNext alpha gamma : Float) :
    (∃ b : Move, (q.best s).1 = b.index ∧ q.value s b.index = .ok (q.best s).2 ∧
      (∀ m : Move, q.Covers s m.index → ∀ x, q.value s m.index = .ok x → ¬ (q.best s).2 < x) ∧
      ∀ m : Move, m.index < b.index → ∀ x, q.value s m.index = .ok x → ¬ (q.best s).2 ≤ x) ∧
    ∃ q', q.update s a.index reward maxNext alpha gamma = .ok q' ∧
      (∃ old, q.value s a.index = .ok old ∧
        q'.value s a.index = .ok (old + alpha * (reward + gamma * maxNext - old))) ∧
      (∀ (s' : Situation) (m : Move), s'.key ≠ s.key ∨ m ≠ a →
        q'.value s' m.index = q.value s' m.index) ∧
      q'.rows[s.key]?.map Array.size = some moveCount ∧ q'.updates = q.updates + 1 := by
  obtain ⟨hlt, hval, htop, hfirst⟩ := q.best_spec s
  obtain ⟨q', hq', hupd, -, hrow, hentry⟩ := q.update_spec s a reward maxNext alpha gamma
  have hb := Move.index_ofIndex hlt
  refine ⟨⟨Move.ofIndex (q.best s).1, hb.symm, ?_, ?_, ?_⟩, q', hq', ⟨_, q.value_natCast s a.index, ?_⟩,
    ?_, hrow, hupd⟩
  · rw [hb, value_natCast, hval]
  · intro m hcov x hx
    rw [value_natCast, Except.ok.injEq] at hx
    exact hx ▸ htop m.index m.index_lt hcov
  · intro m hm x hx
    rw [value_natCast, Except.ok.injEq] at hx
    exact hx ▸ hfirst m.index (hb ▸ hm)
  · rw [value_natCast, hentry, if_pos ⟨rfl, rfl⟩]
  · intro s' m hother
    rw [value_natCast, value_natCast, hentry, if_neg]
    rintro ⟨hkey, rfl⟩
    exact hother.elim (· hkey) (· rfl)

/-- A row with an entry for each of the four moves lets the scan for the best move see every
move. -/
theorem covers_of_full {q : QTable} {s : Situation}
    (hfull : ∀ row, q.rows[s.key]? = some row → moveCount ≤ row.size) (m : Move) :
    q.Covers s m.index :=
  fun row hrow ↦ Nat.lt_of_lt_of_le m.index_lt (hfull row hrow)

/-- Where a situation has no row, or a row with an entry for each of the four moves, its best
move is the first one of greatest value among all four, and its value is the one read for it;
training is as `best_agrees_and_update_is_local` says. -/
theorem best_is_argmax_and_update_is_local (q : QTable) (s : Situation)
    (hfull : ∀ row, q.rows[s.key]? = some row → moveCount ≤ row.size) (a : Move)
    (reward maxNext alpha gamma : Float) :
    (∃ b : Move, (q.best s).1 = b.index ∧ q.value s b.index = .ok (q.best s).2 ∧
      (∀ m : Move, ∀ x, q.value s m.index = .ok x → ¬ (q.best s).2 < x) ∧
      ∀ m : Move, m.index < b.index → ∀ x, q.value s m.index = .ok x → ¬ (q.best s).2 ≤ x) ∧
    ∃ q', q.update s a.index reward maxNext alpha gamma = .ok q' ∧
      (∃ old, q.value s a.index = .ok old ∧
        q'.value s a.index = .ok (old + alpha * (reward + gamma * maxNext - old))) ∧
      (∀ (s' : Situation) (m : Move), s'.key ≠ s.key ∨ m ≠ a →
        q'.value s' m.index = q.value s' m.index) ∧
      q'.rows[s.key]?.map Array.size = some moveCount ∧ q'.updates = q.updates + 1 := by
  obtain ⟨⟨b, hb, hval, htop, hfirst⟩, htrain⟩ :=
    best_agrees_and_update_is_local q s a reward maxNext alpha gamma
  exact ⟨⟨b, hb, hval, fun m ↦ htop m (covers_of_full hfull m), hfirst⟩, htrain⟩

/-- The situation of a room conflict, for staff of low load, in the morning. -/
def roomLowMorning : Situation := ⟨"room", "low", "morning"⟩

/-- A table whose one row, for `roomLowMorning`, has all four moves, move 1 the best. -/
def fullRowTable : QTable :=
  { values := some ((∅ : Std.HashMap String (Array Float)).insert roomLowMorning.key #[0, 2, 1, 0]) }

theorem best_is_argmax_and_update_is_local_fullRow :
    (∀ row, fullRowTable.rows[roomLowMorning.key]? = some row → moveCount ≤ row.size) ∧
    (∃ b : Move, (fullRowTable.best roomLowMorning).1 = b.index ∧
      fullRowTable.value roomLowMorning b.index = .ok (fullRowTable.best roomLowMorning).2 ∧
      (∀ m : Move, ∀ x, fullRowTable.value roomLowMorning m.index = .ok x →
        ¬ (fullRowTable.best roomLowMorning).2 < x) ∧
      ∀ m : Move, m.index < b.index → ∀ x, fullRowTable.value roomLowMorning m.index = .ok x →
        ¬ (fullRowTable.best roomLowMorning).2 ≤ x) ∧
    ∃ q', fullRowTable.update roomLowMorning Move.placeDirect.index 1 0 1 0 = .ok q' ∧
      (∃ old, fullRowTable.value roomLowMorning Move.placeDirect.index = .ok old ∧
        q'.value roomLowMorning Move.placeDirect.index = .ok (old + 1 * (1 + 0 * 0 - old))) ∧
      (∀ (s' : Situation) (m : Move), s'.key ≠ roomLowMorning.key ∨ m ≠ Move.placeDirect →
        q'.value s' m.index = fullRowTable.value s' m.index) ∧
      q'.rows[roomLowMorning.key]?.map Array.size = some moveCount ∧
      q'.updates = fullRowTable.updates + 1 := by
  have hfull : ∀ row, fullRowTable.rows[roomLowMorning.key]? = some row → moveCount ≤ row.size := by
    intro row hrow
    simp only [fullRowTable, rows_some, Std.HashMap.getElem?_insert_self, Option.some.injEq] at hrow
    subst hrow
    decide
  exact ⟨hfull, best_is_argmax_and_update_is_local fullRowTable roomLowMorning hfull .placeDirect 1 0 1 0⟩

/-- A table whose one row, for `roomLowMorning`, is `[-5]`: shorter than the four moves. -/
def shortRowTable : QTable :=
  { values := some ((∅ : Std.HashMap String (Array Float)).insert roomLowMorning.key #[-5]) }

/-- With the row `[-5]` the best move is move 0 at `-5`, although move 1, past the row, reads
zero, which is worth more: the best move's value is not the greatest value of the four. -/
theorem best_misses_moves_past_short_row :
    shortRowTable.best roomLowMorning = (Move.placeDirect.index, -5) ∧
      shortRowTable.value roomLowMorning Move.relocateBlocker.index = .ok 0 ∧
      (shortRowTable.best roomLowMorning).2 < 0 := by
  have hrow : shortRowTable.rows[roomLowMorning.key]? = some #[-5] := by
    simp [shortRowTable]
  have hbest : shortRowTable.best roomLowMorning = (Move.placeDirect.index, -5) := by
    rw [best_eq, hrow]
    -- the scan takes column 0 and finds nothing in columns 1 to 3
    simp [moveCount, List.range_succ, bestStep, Move.index]
  refine ⟨hbest, ?_, ?_⟩
  · rw [value_natCast]
    simp [entry, hrow, Move.index]
  · rw [hbest]
    decide

/-! ## Two situations that share a key -/

/-- Two situations whose names split one key differently share a row: training a move in one
changes that move's value in the other. -/
theorem update_shares_joined_keys :
    let s₁ : Situation := ⟨"a|b", "c", "d"⟩
    let s₂ : Situation := ⟨"a", "b|c", "d"⟩
    s₁ ≠ s₂ ∧ ∃ q', ({} : QTable).update s₁ Move.placeDirect.index 1 0 1 0 = .ok q' ∧
      q'.value s₂ Move.placeDirect.index ≠ ({} : QTable).value s₂ Move.placeDirect.index := by
  intro s₁ s₂
  obtain ⟨q', hq', -, -, -, hentry⟩ := ({} : QTable).update_spec s₁ .placeDirect 1 0 1 0
  have hkey : s₂.key = s₁.key := by decide
  refine ⟨by decide, q', hq', ?_⟩
  rw [value_natCast, value_natCast, hentry, if_pos ⟨hkey, rfl⟩]
  have hpos : (0 : Float) < 0 + 1 * (1 + 0 * 0 - 0) := by decide
  simp only [entry_empty, ne_eq, Except.ok.injEq]
  intro h
  rw [h] at hpos
  exact Float.lt_irrefl 0 hpos

end QTable

end Timetabling
