import Mathlib.Data.List.DropRight
import Timetabling.Monitor

/-! # Memory pressure events

A monitor sends each change of level to its subscribers, and a subscriber's queue drops its oldest
event when full. Over a run of checks this makes three things true. The changes form a chain from
the starting level, each a real change. A queue that nobody reads ends up holding the newest
changes, as many as its buffer takes, in order. A subscriber that unsubscribes is gone for every
later call, whatever those calls are.

The changes are given by `Monitor.changes`, which reads the samples alone: a monitor's run is
related to it by one lemma per step (`check_subscribers`, `check_level`) and one per run. -/

namespace Timetabling

/-- Keeping the newest `n` elements of a list that already kept its newest `n` keeps the same. -/
theorem List.rtake_append_rtake {α : Type} (l l' : List α) (n : Nat) :
    (l.rtake n ++ l').rtake n = (l ++ l').rtake n := by
  simp only [List.rtake_eq_reverse_take_reverse, List.reverse_append, List.reverse_reverse,
    List.take_append, List.take_take]
  congr 3
  omega

namespace Subscription

/-- A queue with room for at least one event that holds no more than it has room for. -/
def Bounded (s : Subscription) : Prop := 0 < s.capacity ∧ s.events.length ≤ s.capacity

/-- Deliver events in turn. -/
def deliverAll (s : Subscription) (es : List PressureEvent) : Subscription :=
  es.foldl deliver s

@[simp] theorem deliver_id (s : Subscription) (e : PressureEvent) : (s.deliver e).id = s.id := by
  unfold deliver
  split <;> rfl

@[simp] theorem deliver_capacity (s : Subscription) (e : PressureEvent) :
    (s.deliver e).capacity = s.capacity := by
  unfold deliver
  split <;> rfl

@[simp] theorem deliverAll_nil (s : Subscription) : s.deliverAll [] = s := rfl

@[simp] theorem deliverAll_cons (s : Subscription) (e : PressureEvent) (es : List PressureEvent) :
    s.deliverAll (e :: es) = (s.deliver e).deliverAll es := rfl

theorem deliverAll_append (s : Subscription) (es es' : List PressureEvent) :
    s.deliverAll (es ++ es') = (s.deliverAll es).deliverAll es' :=
  List.foldl_append

@[simp] theorem deliverAll_id (s : Subscription) (es : List PressureEvent) :
    (s.deliverAll es).id = s.id := by
  induction es generalizing s <;> simp_all

@[simp] theorem deliverAll_capacity (s : Subscription) (es : List PressureEvent) :
    (s.deliverAll es).capacity = s.capacity := by
  induction es generalizing s <;> simp_all

/-- Delivering to a bounded queue keeps its newest events, as many as fit: when full, the oldest
gives way. -/
theorem deliver_events {s : Subscription} (h : s.Bounded) (e : PressureEvent) :
    (s.deliver e).events = (s.events ++ [e]).rtake s.capacity := by
  have hpos := h.1
  unfold deliver List.rtake
  split
  · simp only [List.length_append, List.length_singleton]
    rw [Nat.sub_eq_zero_of_le (by omega), List.drop_zero]
  · have hlen : s.events.length = s.capacity := by have := h.2; omega
    simp only [List.length_append, List.length_singleton]
    rw [show s.events.length + 1 - s.capacity = 1 by omega,
      List.drop_append_of_le_length (by omega)]

theorem Bounded.deliver {s : Subscription} (h : s.Bounded) (e : PressureEvent) :
    (s.deliver e).Bounded := by
  refine ⟨by simpa using h.1, ?_⟩
  rw [deliver_events h, deliver_capacity, List.rtake]
  simp only [List.length_drop, List.length_append, List.length_singleton]
  omega

/-- A bounded queue fed a list of events holds the newest of everything it was given. -/
theorem deliverAll_events {s : Subscription} (h : s.Bounded) (es : List PressureEvent) :
    (s.deliverAll es).events = (s.events ++ es).rtake s.capacity := by
  induction es generalizing s with
  | nil => simp [List.rtake, h.2]
  | cons e es ih =>
    rw [deliverAll_cons, ih (h.deliver e), deliver_events h, deliver_capacity,
      List.rtake_append_rtake, List.append_assoc, List.singleton_append]

/-- A bounded queue fed a list of events, as a whole. -/
theorem deliverAll_eq {s : Subscription} (h : s.Bounded) (es : List PressureEvent) :
    s.deliverAll es = { s with events := (s.events ++ es).rtake s.capacity } := by
  rw [← deliverAll_events h, ← deliverAll_id s es, ← deliverAll_capacity s es]

end Subscription

namespace Monitor

/-- The monitor after checking each sample in turn. -/
def checks (m : Monitor) (samples : List (Except String Usage)) : Monitor :=
  samples.foldl (fun m x ↦ (m.check x).2.2) m

/-- The level a sample leaves behind: a failed sample keeps the level. -/
def levelAfter (m : Monitor) (level : PressureLevel) : Except String Usage → PressureLevel
  | .error _ => level
  | .ok u => m.classify u.ratio

/-- The change of level a sample makes, if it makes one. -/
def change (m : Monitor) (level : PressureLevel) : Except String Usage → Option PressureEvent
  | .error _ => none
  | .ok u => if m.classify u.ratio = level then none else some ⟨m.classify u.ratio, level, u⟩

/-- The changes of level that samples make from a level, under a monitor's thresholds. -/
def changes (m : Monitor) : PressureLevel → List (Except String Usage) → List PressureEvent
  | _, [] => []
  | level, x :: rest => (m.change level x).toList ++ m.changes (m.levelAfter level x) rest

@[simp] theorem checks_nil (m : Monitor) : m.checks [] = m := rfl

@[simp] theorem checks_cons (m : Monitor) (x : Except String Usage) (xs) :
    m.checks (x :: xs) = (m.check x).2.2.checks xs := rfl

/-- A failed sample leaves the monitor, its level, last usage and queues as they were. -/
@[simp] theorem check_error (m : Monitor) (e : String) : m.check (.error e) = (m.level, some e, m) :=
  rfl

/-! ## One check -/

section
variable (m : Monitor) (x : Except String Usage)

/-- A check keeps the thresholds, so it classifies as before. -/
@[simp] theorem check_classify : (m.check x).2.2.classify = m.classify := by
  cases x <;> rfl

@[simp] theorem check_nextId : (m.check x).2.2.nextId = m.nextId := by
  cases x <;> rfl

theorem check_level : (m.check x).2.2.level = m.levelAfter m.level x := by
  cases x <;> rfl

/-- A check delivers to every subscriber the change its sample makes, and nothing else. -/
theorem check_subscribers :
    (m.check x).2.2.subscribers = m.subscribers.map (·.deliverAll (m.change m.level x).toList) := by
  cases x with
  | error e => simp [change]
  | ok u =>
    by_cases h : m.classify u.ratio = m.level
    · simp [check, change, h]
    · simp [check, change, h, Subscription.deliverAll]

end

/-- Changes read a monitor's classification only. -/
theorem changes_of_classify {m m' : Monitor} (h : m'.classify = m.classify) :
    m'.changes = m.changes := by
  funext level xs
  induction xs generalizing level with
  | nil => rfl
  | cons x xs ih =>
    cases x <;> simp [changes, change, levelAfter, h, ih]

theorem levelAfter_of_classify {m m' : Monitor} (h : m'.classify = m.classify) :
    m'.levelAfter = m.levelAfter := by
  funext level x
  cases x <;> simp [levelAfter, h]

@[simp] theorem check_changes (m : Monitor) (x : Except String Usage) :
    (m.check x).2.2.changes = m.changes :=
  changes_of_classify (check_classify m x)

@[simp] theorem check_levelAfter (m : Monitor) (x : Except String Usage) :
    (m.check x).2.2.levelAfter = m.levelAfter :=
  levelAfter_of_classify (check_classify m x)

/-! ## A run of checks -/

/-- Over a run, every subscriber gets the changes the samples make, in order. -/
theorem checks_subscribers (m : Monitor) (xs : List (Except String Usage)) :
    (m.checks xs).subscribers = m.subscribers.map (·.deliverAll (m.changes m.level xs)) := by
  induction xs generalizing m with
  | nil => simp [changes]
  | cons x xs ih =>
    rw [checks_cons, ih, check_subscribers, check_changes, check_level, List.map_map]
    simp [Function.comp_def, changes, Subscription.deliverAll_append]

section
variable (m : Monitor) (b : Int)

@[simp] theorem subscribe_level : (m.subscribe b).level = m.level := rfl

@[simp] theorem subscribe_nextId : (m.subscribe b).nextId = m.nextId + 1 := rfl

@[simp] theorem subscribe_changes : (m.subscribe b).changes = m.changes :=
  changes_of_classify rfl

@[simp] theorem subscribe_levelAfter : (m.subscribe b).levelAfter = m.levelAfter :=
  levelAfter_of_classify rfl

end

/-! ## The changes -/

theorem levelAfter_of_change_none {m : Monitor} {level : PressureLevel} {x : Except String Usage}
    (h : m.change level x = none) : m.levelAfter level x = level := by
  cases x with
  | error e => rfl
  | ok u =>
    simp only [change, ite_eq_left_iff, reduceCtorEq, imp_false, not_not] at h
    exact h

theorem change_eq_some {m : Monitor} {level : PressureLevel} {x : Except String Usage}
    {e : PressureEvent} (h : m.change level x = some e) :
    e.previous = level ∧ e.level = m.levelAfter level x ∧ e.level ≠ level := by
  cases x with
  | error err => cases h
  | ok u =>
    simp only [change] at h
    split at h
    · cases h
    · cases h
      exact ⟨rfl, rfl, by assumption⟩

/-- Each change starts from the level the one before it reached, the first from the starting
level. -/
theorem changes_previous (m : Monitor) (level : PressureLevel) (xs : List (Except String Usage)) :
    (m.changes level xs).map (·.previous) =
      (level :: (m.changes level xs).map (·.level)).dropLast := by
  induction xs generalizing level with
  | nil => rfl
  | cons x xs ih =>
    cases hc : m.change level x with
    | none => simp [changes, hc, levelAfter_of_change_none hc, ih]
    | some e =>
      obtain ⟨hp, hl, -⟩ := change_eq_some hc
      simp [changes, hc, hp, ← hl, ih]

/-- Every change changes the level. -/
theorem level_ne_previous_of_mem_changes {m : Monitor} {level : PressureLevel}
    {xs : List (Except String Usage)} {e : PressureEvent} (he : e ∈ m.changes level xs) :
    e.level ≠ e.previous := by
  induction xs generalizing level with
  | nil => cases he
  | cons x xs ih =>
    simp only [changes, List.mem_append, Option.mem_toList] at he
    rcases he with he | he
    · obtain ⟨hp, -, hne⟩ := change_eq_some he
      rw [hp]
      exact hne
    · exact ih he

/-- The last change reaches the level the samples leave behind. -/
theorem changes_last_level (m : Monitor) (level : PressureLevel) (xs : List (Except String Usage)) :
    ((m.changes level xs).getLast?.map (·.level)).getD level = xs.foldl m.levelAfter level := by
  induction xs generalizing level with
  | nil => rfl
  | cons x xs ih =>
    cases hc : m.change level x with
    | none =>
      simp only [changes, hc, levelAfter_of_change_none hc, Option.toList_none, List.nil_append,
        List.foldl_cons]
      exact ih level
    | some e =>
      obtain ⟨-, hl, -⟩ := change_eq_some hc
      have ihx := ih (m.levelAfter level x)
      simp only [changes, hc, Option.toList_some, List.singleton_append, List.getLast?_cons,
        List.foldl_cons] at ihx ⊢
      rw [← ihx]
      cases (m.changes (m.levelAfter level x) xs).getLast? <;> simp [hl]

/-- After a run the level is the one the last sample left. -/
theorem checks_level (m : Monitor) (xs : List (Except String Usage)) :
    (m.checks xs).level = xs.foldl m.levelAfter m.level := by
  induction xs generalizing m with
  | nil => rfl
  | cons x xs ih => rw [checks_cons, ih, check_levelAfter, check_level, List.foldl_cons]

/-- A new monitor starts at the normal level with no subscriber and hands out numbers from zero. -/
theorem create_eq_ok {w c : Float} {m : Monitor} (h : create w c = .ok m) :
    m.level = .normal ∧ m.subscribers = [] ∧ m.nextId = 0 := by
  unfold create at h
  -- the defaults are beside the point; only the final test decides
  generalize (if w ≤ 0 then (0.80 : Float) else w) = w' at h
  generalize (if c ≤ 0 then (0.92 : Float) else c) = c' at h
  dsimp only at h
  split at h
  · cases h
  · cases h
    exact ⟨rfl, rfl, rfl⟩

/-! ## Any sequence of calls -/

/-- A call a client makes on a monitor. -/
inductive Call where
  | check (sample : Except String Usage)
  | subscribe (buffer : Int)
  | unsubscribe (id : Nat)

/-- Make one call. -/
def call (m : Monitor) : Call → Monitor
  | .check x => (m.check x).2.2
  | .subscribe b => m.subscribe b
  | .unsubscribe id => m.unsubscribe id

/-- Make calls in turn. -/
def calls (m : Monitor) (cs : List Call) : Monitor :=
  cs.foldl call m

/-- The numbers of a monitor's subscribers. -/
def ids (m : Monitor) : List Nat :=
  m.subscribers.map (·.id)

@[simp] theorem check_ids (m : Monitor) (x : Except String Usage) : (m.check x).2.2.ids = m.ids := by
  simp [ids, check_subscribers, Function.comp_def]

@[simp] theorem subscribe_ids (m : Monitor) (b : Int) : (m.subscribe b).ids = m.ids ++ [m.nextId] := by
  simp [ids, subscribe]

@[simp] theorem mem_unsubscribe_ids {m : Monitor} {id i : Nat} :
    i ∈ (m.unsubscribe id).ids ↔ i ∈ m.ids ∧ i ≠ id := by
  simp only [ids, unsubscribe, List.mem_map, List.mem_filter, bne_iff_ne, ne_eq]
  constructor
  · rintro ⟨s, ⟨hs, hne⟩, rfl⟩
    exact ⟨⟨s, hs, rfl⟩, hne⟩
  · rintro ⟨⟨s, hs, rfl⟩, hne⟩
    exact ⟨s, ⟨hs, hne⟩, rfl⟩

/-- A number that was handed out and whose subscriber has left. -/
def Gone (m : Monitor) (id : Nat) : Prop :=
  id < m.nextId ∧ id ∉ m.ids

theorem gone_unsubscribe {m : Monitor} {id : Nat} (h : id < m.nextId) : (m.unsubscribe id).Gone id :=
  ⟨h, by simp⟩

/-- No call brings back a subscriber that left: a new one gets a fresh number. -/
theorem Gone.call {m : Monitor} {id : Nat} (h : m.Gone id) (c : Call) : (m.call c).Gone id := by
  obtain ⟨hlt, hnot⟩ := h
  cases c with
  | check x => exact ⟨by simpa [Monitor.call] using hlt, by simpa [Monitor.call] using hnot⟩
  | subscribe b =>
    refine ⟨by simp [Monitor.call, subscribe]; omega, ?_⟩
    simp only [Monitor.call, subscribe_ids, List.mem_append, List.mem_singleton, not_or]
    exact ⟨hnot, by omega⟩
  | unsubscribe i => exact ⟨hlt, by simp [Monitor.call, hnot]⟩

theorem calls_append (m : Monitor) (cs cs' : List Call) :
    m.calls (cs ++ cs') = (m.calls cs).calls cs' :=
  List.foldl_append

/-- Numbers are never handed out twice. -/
theorem nextId_le_calls (m : Monitor) (cs : List Call) : m.nextId ≤ (m.calls cs).nextId := by
  induction cs generalizing m with
  | nil => exact le_rfl
  | cons c cs ih =>
    refine le_trans ?_ (ih (m.call c))
    cases c <;> simp [Monitor.call, subscribe, unsubscribe]

theorem checks_eq_calls (m : Monitor) (xs : List (Except String Usage)) :
    m.checks xs = m.calls (xs.map .check) := by
  induction xs generalizing m with
  | nil => rfl
  | cons x xs ih => exact ih _

theorem Gone.calls {m : Monitor} {id : Nat} (h : m.Gone id) (cs : List Call) :
    (m.calls cs).Gone id := by
  induction cs generalizing m with
  | nil => exact h
  | cons c cs ih => exact ih (h.call c)

/-! ## A subscriber with no reader -/

/-- Subscribe to a new monitor with a buffer `b` (four when not positive) and check samples, with
no reader draining the queue. The changes the samples make form a chain from the normal level,
each a real change. The queue holds the newest of them, as many as the buffer takes, in order, and
the newest it holds is at the monitor's level. A failed sample changes nothing, and once the
subscriber unsubscribes no sequence of calls brings it back. -/
theorem subscriber_holds_newest_changes {w c : Float} {m₀ : Monitor} (hm : create w c = .ok m₀)
    (b : Int) (xs : List (Except String Usage)) :
    let E := m₀.changes .normal xs
    let cap := if b ≤ 0 then 4 else b.toNat
    let m := (m₀.subscribe b).checks xs
    E.map (·.previous) = (.normal :: E.map (·.level)).dropLast ∧
      (∀ e ∈ E, e.level ≠ e.previous) ∧
      m.subscribers = [{ id := 0, capacity := cap, events := E.rtake cap }] ∧
      (∀ e ∈ E.getLast?, e.level = m.level) ∧
      (∀ err, m.check (.error err) = (m.level, some err, m)) ∧
      ∀ cs cs', 0 ∉ (m.calls (cs ++ .unsubscribe 0 :: cs')).ids := by
  obtain ⟨hlevel, hsubs, hid⟩ := create_eq_ok hm
  intro E cap m
  have hbounded : ({ id := 0, capacity := cap } : Subscription).Bounded := by
    refine ⟨?_, Nat.zero_le _⟩
    simp only [cap]
    split <;> omega
  have hchanges : (m₀.subscribe b).changes (m₀.subscribe b).level xs = E := by
    rw [subscribe_changes, subscribe_level, hlevel]
  refine ⟨changes_previous .., fun e he ↦ level_ne_previous_of_mem_changes he, ?_, ?_,
    fun _ ↦ rfl, ?_⟩
  · -- the one queue gets every change, from empty
    rw [checks_subscribers, hchanges]
    simp only [subscribe, hsubs, hid, List.nil_append, List.map_singleton, List.cons.injEq, and_true]
    exact Subscription.deliverAll_eq hbounded E
  · -- the level the samples leave is the last change's
    intro e he
    have hlast := changes_last_level m₀ .normal xs
    rw [he, Option.map_some, Option.getD_some] at hlast
    rw [checks_level, hlast, subscribe_levelAfter, subscribe_level, hlevel]
  · -- the number stays handed out, so its subscriber is gone for good
    intro cs cs'
    have hissued : 0 < (m.calls cs).nextId := by
      have := nextId_le_calls (m₀.subscribe b) (xs.map .check ++ cs)
      rw [calls_append, ← checks_eq_calls, subscribe_nextId, hid] at this
      exact this
    intro h
    rw [calls_append] at h
    exact ((gone_unsubscribe hissued).calls cs').2 h

/-- The default thresholds with a buffer of one, over a rise to critical and a fall back: the
queue keeps the fall only. -/
theorem one_slot_keeps_last_change :
    create 0 0 = .ok { warning := 0.80, critical := 0.92 } ∧
      ((({ warning := 0.80, critical := 0.92 } : Monitor).subscribe 1).checks
          [.ok ⟨95, 100⟩, .ok ⟨10, 100⟩]).subscribers =
        [{ id := 0, capacity := 1,
           events := (({ warning := 0.80, critical := 0.92 } : Monitor).changes .normal
             [.ok ⟨95, 100⟩, .ok ⟨10, 100⟩]).rtake 1 }] := by
  have h : create 0 0 = .ok { warning := 0.80, critical := 0.92 } := by
    unfold create
    rw [if_neg (by decide), if_pos (by decide), if_pos (by decide)]
  exact ⟨h, (subscriber_holds_newest_changes h 1 _).2.2.1⟩

end Monitor

end Timetabling
