import Std.Data.HashMap
import Timetabling.Catalog.Basic
import Timetabling.Number.Truncate
import Timetabling.Text.Unicode

/-! # Learned repair values

Repair learns, for each observed situation, the value of each of its four moves. A situation is
the kind of conflict, the load of the course's staff and the busiest part of the day among its
candidate slots; its key is the three names joined by `|`. A row of values normally has one entry
per move, but rows read from storage may have any length: reading ignores missing entries,
and updating first pads or cuts the row to four entries.

Tables are stored per scope with a version. Saving succeeds only when the table's version equals
the stored one (zero when nothing is stored) and then advances both by one, so of two writers that
read the same version only the first can save. -/

namespace Timetabling

/-- Repair moves, by number: place directly, relocate a blocker, swap slots, rebalance load. -/
def moveNames : List String := ["place_direct", "relocate_blocker", "swap_slots", "rebalance_load"]

/-- The number of repair moves. -/
def moveCount : Nat := 4

/-- The name of a move number; numbers outside the four are `unknown`. -/
def moveName (a : Int) : String :=
  if a < 0 then "unknown" else moveNames.getD a.toNat "unknown"

/-- The observed situation of a conflict. -/
structure Situation where
  conflict : String
  load : String
  density : String
deriving DecidableEq, Repr, Inhabited

/-- The key of a situation: its three names joined by `|`. -/
def Situation.key (s : Situation) : String :=
  s.conflict ++ "|" ++ s.load ++ "|" ++ s.density

/-- The text of a read or write outside a row: a negative index, or one past its length. -/
def indexFault (i : Int) (length : Option Nat) : String :=
  match length with
  | some n => s!"runtime error: index out of range [{i}] with length {n}"
  | none => s!"runtime error: index out of range [{i}]"

/-- Learned move values. `values` is `none` for a table whose map was never made. -/
structure QTable where
  version : Int := 0
  values : Option (Std.HashMap String (Array Float)) := some {}
  updates : Int := 0

namespace QTable

/-- The rows of a table. -/
def rows (q : QTable) : Std.HashMap String (Array Float) :=
  q.values.getD {}

/-- The value of a move in a situation: zero for an unknown situation or a move past the row;
a negative move number is a fault. -/
def value (q : QTable) (s : Situation) (a : Int) : Except String Float :=
  match q.rows[s.key]? with
  | none => .ok 0
  | some row =>
    if a ≥ row.size then .ok 0
    else if a < 0 then .error (indexFault a none)
    else .ok (row[a.toNat]?.getD 0)

/-- The best move in a situation and its value: the first move of greatest value among the row's
entries, or move 0 with value zero for an unknown situation. -/
def best (q : QTable) (s : Situation) : Nat × Float :=
  match q.rows[s.key]? with
  | none => (0, 0)
  | some row =>
    (List.range moveCount).foldl (fun (b, v) i =>
      match row[i]? with
      | some x => if i == 0 || x > v then (i, x) else (b, v)
      | none => (b, v)) (0, 0)

/-- The row of a situation, padded with zeros or cut to one entry per move. -/
def fixedRow (row : Option (Array Float)) : Array Float :=
  match row with
  | some r => if r.size == moveCount then r else (List.range moveCount).toArray.map fun i => r[i]?.getD 0
  | none => Array.replicate moveCount 0

/-- Move the value of a move toward `reward + gamma · maxNext` by the learning rate `alpha`;
a move number outside the four is a fault. -/
def update (q : QTable) (s : Situation) (a : Int) (reward maxNext alpha gamma : Float) :
    Except String QTable :=
  let row := fixedRow q.rows[s.key]?
  if a < 0 then .error (indexFault a none)
  else if h : a.toNat < row.size then
    let old := row[a.toNat]
    let row := row.set a.toNat (old + alpha * (reward + gamma * maxNext - old))
    .ok { q with values := some (q.rows.insert s.key row), updates := q.updates + 1 }
  else .error (indexFault a (some row.size))

/-- A copy of a table whose map exists. -/
def copy (q : QTable) : QTable :=
  { q with values := some q.rows }

/-- The situation keys with a row, sorted. -/
def states (q : QTable) : List String :=
  sortStrings q.rows.keys

end QTable

/-- A scope name without case or surrounding blanks; empty means `default`. -/
def normalizeScope (scope : String) : String :=
  let s := Text.trimSpace (Text.lower scope)
  if s == "" then "default" else s

/-- Why a save is refused: no table, or the versions differ. -/
inductive SaveError where
  | noTable
  | versionConflict (scope : String) (stored table : Int)
deriving DecidableEq, Repr

/-- The text of a refused save. -/
def SaveError.message : SaveError → String
  | .noTable => "save q-table: nil table"
  | .versionConflict scope stored table =>
    s!"save q-table {scope}: stored version {stored}, table version {table}: q-table version conflict"

/-- Stored tables by normalized scope. -/
structure TableStore where
  tables : Std.HashMap String QTable := {}

namespace TableStore

/-- A copy of the stored table of a scope, or an empty one. -/
def load (st : TableStore) (scope : String) : QTable :=
  match st.tables[normalizeScope scope]? with
  | some q => q.copy
  | none => {}

/-- Save a table if its version is the stored one, returning the saved table with its new
version. -/
def save (st : TableStore) (scope : String) (table : Option QTable) :
    Except SaveError (QTable × TableStore) :=
  match table with
  | none => .error .noTable
  | some q =>
    let scope := normalizeScope scope
    let current := (st.tables[scope]?.map (·.version)).getD 0
    if current != q.version then .error (.versionConflict scope current q.version)
    else
      let q := { q with version := q.version + 1 }
      .ok (q, ⟨st.tables.insert scope q.copy⟩)

end TableStore

/-- How a run reaches a Q-table store whose state is `β`: loading the table of a scope, and saving
a trained table, which answers the table with its new version. Either may fail with a text; a run
that cannot load starts from an empty table, and one that cannot save keeps its table unsaved. -/
structure TableShelf (β : Type) where
  load : β → String → Except String QTable × β
  save : β → String → QTable → Except String QTable × β

/-- The in-memory store as a shelf. -/
def TableStore.shelf : TableShelf TableStore :=
  ⟨fun st scope => (.ok (st.load scope), st),
   fun st scope q => match st.save scope (some q) with
    | .ok (saved, st) => (.ok saved, st)
    | .error e => (.error e.message, st)⟩

/-- The reward of a repair move: one per conflict resolved, minus five per conflict introduced,
and a fifth more when staff load became more even. -/
def moveReward (resolved introduced : Int) (loadImproved : Bool) : Float :=
  let r := 1.0 * Float.ofInt resolved - 5.0 * Float.ofInt introduced
  if loadImproved then r + 0.2 else r

/-- The reward of going from one conflict count to another. -/
def countReward (old new : Int) (loadImproved : Bool) : Float :=
  moveReward (max (old - new) 0) (max (new - old) 0) loadImproved

/-- The schedule of exploration: from `start`, falling linearly to `floor` over the first
`annealFraction` of the iterations (the count of those rounded toward zero), then `floor`. -/
def explorationRate (iterations : Int) (start floor annealFraction : Float) (it : Int) : Float :=
  let steps := truncToInt64 (annealFraction * Float.ofInt iterations)
  if steps ≤ 0 ∨ it ≥ steps then floor
  else start - (start - floor) * Float.ofInt it / Float.ofInt steps

end Timetabling
