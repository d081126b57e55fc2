import Timetabling.Database.Records
import Timetabling.Repair.QTable

/-! # Q-tables in the database

A scope's Q-table is one row: the scope, its version, its rows as JSON text, its update count and
when it was written. Loading a scope with no row gives an empty table at version zero. Saving is
optimistic: a table at version zero is inserted unless a row exists, a later version replaces the
row only if the stored version is still the table's, and a save that changes no row is a version
conflict. A saved table moves to the next version. -/

namespace Timetabling

/-- Why a Q-table store refused a save, and whether it was for the version. -/
structure StoreRefusal where
  message : String
  versionConflict : Bool := false
deriving Repr, Inhabited

namespace QTableRows

open RecordStore

/-- The record of a Q-table row. -/
def row : RecordType := ⟨"qtableRow", [("scope", .text), ("version", .int "int64" 64),
  ("q_values", .jsonText), ("updates", .int "int64" 64), ("updated_at", .time)]⟩

/-- The JSON text of a table's rows, in name order; no rows is `null`. -/
def valuesText (q : QTable) : String :=
  match q.values with
  | none => "null"
  | some vs =>
    (Json.object ((stableSort (fun a b => decide (a.1 < b.1)) vs.toList).map fun (k, row) =>
      (k, .array (row.toList.map Json.float)))).render

/-- Load the table of a scope. -/
def load (scope : String) : Reading QTable := do
  let fail := fun (e : String) => "load q-table " ++ scope ++ ": " ++ e
  let reply ← context (fail "") (ExceptT.mk (modifyGet fun db => db.send .qtableSelect [.text (normalizeScope scope)]))
  match row.readOne .qtableSelect reply with
  | .error e => throw (fail e)
  | .ok none => pure {}
  | .ok (some r) =>
    let text := r.json "q_values"
    let values ← if text.isEmpty then pure (some {})
      else match JsonSyntax.floatRows text with
        | .ok none => pure none
        | .ok (some rows) =>
          pure (some (rows.foldl (fun (h : Std.HashMap String (Array Float)) (k, row) =>
            h.insert k (row.getD []).toArray) {}))
        | .error e => throw ("decode q-table " ++ scope ++ ": " ++ e)
    pure { version := r.int "version", values, updates := r.int "updates" }

/-- Save a table for a scope, answering it at its new version. -/
def save (scope : String) (table : Option QTable) : ExceptT StoreRefusal (StateM ScriptedDatabase) QTable := do
  let some q := table | throw ⟨"save q-table: nil table", false⟩
  let scope := normalizeScope scope
  let payload := valuesText q
  let (st, args) := if q.version == 0 then (Statement.qtableInsert, [.text scope, .text payload, .int q.updates, .time])
    else (.qtableUpdate, [.text payload, .int q.updates, .time, .text scope, .int q.version])
  let reply ← ExceptT.adapt (fun e => (⟨"save q-table " ++ scope ++ ": " ++ e, false⟩ : StoreRefusal))
    (ExceptT.mk (modifyGet fun db => db.send st args))
  if let some e := reply.affectedError then throw ⟨"save q-table " ++ scope ++ ": " ++ e, false⟩
  if reply.affected == 0 then
    throw ⟨"save q-table " ++ scope ++ " at version " ++ toString q.version ++ ": q-table version conflict", true⟩
  pure { q with version := q.version + 1 }

/-- Create the Q-table's table when it is missing. -/
def ensureSchema : Reading Unit := do
  let _ ← context "create repair_qtables: " (ExceptT.mk (modifyGet fun db => db.send .schema []))

/-- The database as a Q-table store for runs. -/
def shelf : TableShelf ScriptedDatabase :=
  ⟨fun db scope => (load scope).run.run db,
   fun db scope q => match (save scope (some q)).run.run db with
    | (.ok q, db) => (.ok q, db)
    | (.error e, db) => (.error e.message, db)⟩

end QTableRows

end Timetabling
