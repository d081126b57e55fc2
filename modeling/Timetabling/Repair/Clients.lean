import Timetabling.Repair.QTable
import Timetabling.Repair.Moves

/-! # Clients sharing a Q-table store

A table store is shared by any number of clients, each holding a table of its own: a client loads
the table of a scope, trains the table it holds, and saves it back to a scope. The store answers
each load and each save under its lock, so every interleaving of the clients' calls is one
sequence of calls, each seeing the store the calls before it left; training touches only the
trainer's own table.

A client's hand is `none` while it holds no table (a nil table), which a save refuses. Saving
bumps the version of the table in the saver's hand, and the store keeps a copy of it, so nothing
a client does to its table afterwards reaches the store. Versions are counted without bound:
wrapping a 64-bit version would take `2⁶³` saves. -/

namespace Timetabling

/-- The version stored for a scope, zero when nothing is stored. -/
def TableStore.version (st : TableStore) (scope : String) : Int :=
  ((st.tables[normalizeScope scope]?).map (·.version)).getD 0

/-- A call of a client: load a scope's table into its hand, save the table in its hand to a scope,
or train the table in its hand by one move value. -/
inductive TableCall where
  | load (client : Nat) (scope : String)
  | save (client : Nat) (scope : String)
  | train (client : Nat) (situation : Situation) (move : Move) (reward maxNext alpha gamma : Float)

namespace TableCall

/-- The client making a call. -/
def client : TableCall → Nat
  | .load c _ | .save c _ | .train c .. => c

end TableCall

/-- A store and the tables in its clients' hands. -/
structure TableClients where
  store : TableStore := {}
  hands : Nat → Option QTable := fun _ => none

namespace TableClients

/-- Put a table in a client's hand. -/
def hold (w : TableClients) (client : Nat) (q : QTable) : TableClients :=
  { w with hands := fun c => if c = client then some q else w.hands c }

/-- Make one call; a save answers whether it was refused, the other calls answer nothing. A
client trains only a table it holds. -/
def call (w : TableClients) : TableCall → TableClients × Option (Except SaveError Unit)
  | .load c scope => (w.hold c (w.store.load scope), none)
  | .save c scope =>
    match w.store.save scope (w.hands c) with
    | .ok (q, store) => ({ w.hold c q with store }, some (.ok ()))
    | .error e => (w, some (.error e))
  | .train c s m reward maxNext alpha gamma =>
    match w.hands c with
    | some q =>
      match q.update s m.index reward maxNext alpha gamma with
      | .ok q => (w.hold c q, none)
      | .error _ => (w, none)
    | none => (w, none)

/-- Make the calls in order, collecting their answers. -/
def run (w : TableClients) : List TableCall → TableClients × List (Option (Except SaveError Unit))
  | [] => (w, [])
  | c :: cs =>
    let (w, a) := w.call c
    let (w, as) := w.run cs
    (w, a :: as)

end TableClients

end Timetabling
