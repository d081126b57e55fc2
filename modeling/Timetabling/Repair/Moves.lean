import Timetabling.Search.Greedy

/-! # Repair moves

The four local moves the repair agent chooses from, each aimed at one missing session:

* *place directly*: the first candidate the timetable accepts;
* *relocate blockers*: at the first candidate whose blockers (the sessions holding its staff
  member, room or students) are at most two and can all move to another candidate, in candidate
  order; a single blocker that fits nowhere is evicted and marked `evicted`;
* *swap slots*: at a candidate with a single blocker, exchange the blocker's slot with the slot of
  one of the first 64 other placed sessions in another slot, then place the session;
* *rebalance load*: like relocating, but blockers move to the least loaded slots first and are
  never evicted.

A move that fails puts back what it displaced, in the order of the displaced sessions' text; the
missing session loses any reason it carried if it was placed on the way. -/

namespace Timetabling

/-- The repair moves. -/
inductive Move where
  | placeDirect
  | relocateBlocker
  | swapSlots
  | rebalanceLoad
deriving DecidableEq, Repr

namespace Move

/-- The moves in table column order. -/
def all : List Move := [.placeDirect, .relocateBlocker, .swapSlots, .rebalanceLoad]

/-- The move of a table column. -/
def ofIndex : Nat → Move
  | 0 => .placeDirect
  | 1 => .relocateBlocker
  | 2 => .swapSlots
  | _ => .rebalanceLoad

/-- The table column of a move. -/
def index : Move → Nat
  | .placeDirect => 0
  | .relocateBlocker => 1
  | .swapSlots => 2
  | .rebalanceLoad => 3

/-- The name of a move. -/
def name : Move → String
  | .placeDirect => "place_direct"
  | .relocateBlocker => "relocate_blocker"
  | .swapSlots => "swap_slots"
  | .rebalanceLoad => "rebalance_load"

end Move

/-- The most blockers a relocation moves. -/
def maxBlockers : Nat := 2

/-- The most partners a swap tries per candidate. -/
def swapPartnerScan : Nat := 64

namespace Timetable

/-- The distinct placed sessions holding the staff member, the room or the students that a
session needs at a placement: staff first, then room, then students. -/
def blockers (t : Timetable) (key : SessionKey) (p : Placement) : List SessionKey :=
  let course := (t.catalog.course? key.course).getD {}
  let found := (t.facultyOccupant course.facultyId p.slot).toList ++ (t.roomOccupant p.room p.slot).toList ++
    t.studentOccupants course.id p.slot
  found.foldl (fun acc k => if acc.contains k then acc else acc ++ [k]) []

/-- Put displaced sessions back: undo the moved ones, then assign every saved placement again in
the order of the sessions' text, ignoring refusals. -/
def restore (t : Timetable) (moved : List SessionKey) (saved : List (SessionKey × Placement)) : Timetable :=
  let t := moved.foldl (fun t k => (t.unassign k).2) t
  (stableSort (fun a b => decide (a.1.text < b.1.text)) saved).foldl (fun t (k, p) =>
    match t.assign k p with
    | .ok t => t
    | .error _ => t) t

/-- Assign a session at the first of the placements the timetable accepts. -/
def assignFirst (t : Timetable) (key : SessionKey) (ps : List Placement) : Option Timetable :=
  ps.findSome? fun p => (t.assign key p).toOption

/-- How a relocation orders a blocker's candidates. -/
inductive Preference where
  | domain
  | leastLoaded

/-- A blocker's candidates in the order a relocation tries them. -/
def prefer (t : Timetable) : Preference → List Placement → List Placement
  | .domain, ps => ps
  | .leastLoaded, ps => stableSort (fun a b => decide (t.slotLoad a.slot < t.slotLoad b.slot)) ps

/-- Move each blocker to another candidate; the sessions moved before the first that could not
move, if any. -/
def moveBlockers (d : Domain) (pref : Preference) (saved : List (SessionKey × Placement)) (t : Timetable) :
    Timetable × List SessionKey × Bool :=
  saved.foldl (fun (acc : Timetable × List SessionKey × Bool) (b, old) =>
    let (t, moved, ok) := acc
    if !ok then acc
    else match t.assignFirst b ((t.prefer pref (d.forKey b)).filter (· != old)) with
      | some t => (t, moved ++ [b], true)
      | none => (t, moved, false)) (t, [], true)

/-- Relocate the blockers of the first candidate where that frees room for the session. -/
def relocate (t : Timetable) (d : Domain) (key : SessionKey) (pref : Preference) (evict : Bool) :
    Bool × Timetable :=
  (d.forKey key).foldl (fun (acc : Bool × Timetable) p =>
    let (done, t) := acc
    if done then acc
    else
      let bs := t.blockers key p
      if bs.isEmpty then
        match t.assign key p with
        | .ok t => (true, t)
        | .error _ => (false, t)
      else if bs.length > maxBlockers then (false, t)
      else
        let saved := bs.map fun b => (b, (t.lookup b).getD default)
        let freed := bs.foldl (fun t b => (t.unassign b).2) t
        match freed.assign key p with
        | .error _ => (false, freed.restore [] saved)
        | .ok placed =>
          let (t, moved, ok) := moveBlockers d pref saved placed
          if ok then (true, t)
          else if evict && bs.length == 1 then (true, t.markUnscheduled (bs.headD default) "evicted")
          else (false, ((t.unassign key).2).restore moved saved)) (false, t)

/-- Assign a session at the first of its candidates in a given slot that the timetable accepts. -/
def placeInSlot (t : Timetable) (d : Domain) (key : SessionKey) (slot : String) : Option Timetable :=
  t.assignFirst key ((d.forKey key).filter (·.slot == slot))

/-- Exchange the slots of a blocker and a partner, then place the session; on failure what was
displaced is put back. -/
def trySwap (t : Timetable) (d : Domain) (key : SessionKey) (p : Placement) (blocker : SessionKey)
    (blockerAt : Placement) (partner : SessionKey) (partnerAt : Placement) : Bool × Timetable :=
  let saved := [(blocker, blockerAt), (partner, partnerAt)]
  let freed := ((t.unassign blocker).2.unassign partner).2
  match freed.placeInSlot d blocker partnerAt.slot with
  | none => (false, freed.restore [] saved)
  | some t1 =>
    match t1.placeInSlot d partner blockerAt.slot with
    | none => (false, t1.restore [blocker] saved)
    | some t2 =>
      match t2.assign key p with
      | .ok t3 => (true, t3)
      | .error _ => (false, t2.restore [blocker, partner] saved)

/-- Swap a single blocker's slot with another placed session's, for the first candidate where
that lets the session in. -/
def swap (t : Timetable) (d : Domain) (key : SessionKey) : Bool × Timetable :=
  (d.forKey key).foldl (fun (acc : Bool × Timetable) p =>
    let (done, t) := acc
    if done then acc
    else match t.blockers key p with
      | [blocker] =>
        let blockerAt := (t.lookup blocker).getD default
        let (done, t, _) := t.keys.foldl (fun (acc : Bool × Timetable × Nat) partner =>
          let (done, t, scanned) := acc
          if done || scanned ≥ swapPartnerScan then acc
          else
            let partnerAt := (t.lookup partner).getD default
            if partner == blocker || partnerAt.slot == blockerAt.slot then acc
            else
              let (done, t) := t.trySwap d key p blocker blockerAt partner partnerAt
              (done, t, scanned + 1)) (false, t, 0)
        (done, t)
      | _ => (false, t)) (false, t)

/-- Apply a move to a missing session: whether it placed something, and the timetable after. -/
def applyMove (t : Timetable) (d : Domain) (m : Move) (key : SessionKey) : Bool × Timetable :=
  match m with
  | .placeDirect =>
    match t.assignFirst key (d.forKey key) with
    | some t => (true, t)
    | none => (false, t)
  | .relocateBlocker => t.relocate d key .domain true
  | .swapSlots => t.swap d key
  | .rebalanceLoad => t.relocate d key .leastLoaded false

end Timetable

end Timetabling
