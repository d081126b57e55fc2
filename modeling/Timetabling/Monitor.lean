import Timetabling.Number.Text

/-! # Memory pressure

A monitor samples memory use and classifies the used fraction of the limit: critical from the
critical ratio up, warning from the warning ratio up, normal below. Each change of level is sent
to every subscriber. A subscriber holds at most its buffer of events; when it is full the oldest
event makes room for the new one. A subscriber that unsubscribes gets no more events. A failed
sample changes nothing. One sampling loop at most runs at a time. -/

namespace Timetabling

/-- Memory pressure levels. -/
inductive PressureLevel where
  | normal
  | warning
  | critical
deriving DecidableEq, Repr, Inhabited

/-- The name of a level. -/
def PressureLevel.name : PressureLevel → String
  | .normal => "normal"
  | .warning => "warning"
  | .critical => "critical"

/-- One memory sample. -/
structure Usage where
  used : Nat := 0
  limit : Nat := 0
deriving DecidableEq, Repr, Inhabited

/-- A reading of host memory: the used bytes against the total, or against a positive limit
below the total. -/
def Usage.ofHost (used total limit : Nat) : Usage :=
  ⟨used, if limit > 0 ∧ limit < total then limit else total⟩

/-- A sampler that replays recorded readings of used memory against a limit: sample `i` is the
`i`-th reading and the last reading repeats after the end; a negative reading is a failed sample,
and a sampler with no readings fails. -/
def Usage.replay (used : List Int) (limit : Nat) (i : Nat) : Except String Usage :=
  match used.getLast? with
  | none => .error "no samples"
  | some last =>
    let u := used.getD i last
    if u < 0 then .error "sample failed" else .ok ⟨u.toNat, limit⟩

/-- The used fraction of the limit, zero without a limit. -/
def Usage.ratio (u : Usage) : Float :=
  if u.limit = 0 then 0 else Float.ofNat u.used / Float.ofNat u.limit

/-- A change of level. -/
structure PressureEvent where
  level : PressureLevel
  previous : PressureLevel
  usage : Usage
deriving Repr, Inhabited

/-- A subscriber's bounded queue of events, oldest first, under the number it was given. -/
structure Subscription where
  id : Nat
  capacity : Nat
  events : List PressureEvent := []
deriving Repr

/-- Add an event to a queue, dropping the oldest one if the queue is full. -/
def Subscription.deliver (s : Subscription) (e : PressureEvent) : Subscription :=
  if s.events.length < s.capacity then { s with events := s.events ++ [e] }
  else { s with events := s.events.drop 1 ++ [e] }

/-- A monitor's thresholds and state. -/
structure Monitor where
  warning : Float
  critical : Float
  level : PressureLevel := .normal
  last : Usage := {}
  subscribers : List Subscription := []
  /-- The number the next subscriber gets. -/
  nextId : Nat := 0
  /-- Whether the sampling loop runs. -/
  running : Bool := false

namespace Monitor

/-- A monitor with the given thresholds; a threshold that is not positive takes its default
(0.80 and 0.92), and the warning ratio must stay below the critical one. -/
def create (warning critical : Float) : Except String Monitor :=
  let w := if warning ≤ 0 then 0.80 else warning
  let c := if critical ≤ 0 then 0.92 else critical
  if w ≥ c then
    .error ("monitor: warning ratio " ++ FloatText.fixed w 2 ++ " must be below critical ratio " ++
      FloatText.fixed c 2)
  else .ok { warning := w, critical := c }

/-- Add a subscriber with a buffer (four when not positive), numbered `m.nextId`. -/
def subscribe (m : Monitor) (buffer : Int) : Monitor :=
  { m with
    subscribers := m.subscribers ++ [{ id := m.nextId, capacity := if buffer ≤ 0 then 4 else buffer.toNat }]
    nextId := m.nextId + 1 }

/-- Remove a subscriber: no event reaches it any more. Removing it again changes nothing. -/
def unsubscribe (m : Monitor) (id : Nat) : Monitor :=
  { m with subscribers := m.subscribers.filter (·.id != id) }

/-- The level of a used fraction. -/
def classify (m : Monitor) (ratio : Float) : PressureLevel :=
  if ratio ≥ m.critical then .critical else if ratio ≥ m.warning then .warning else .normal

/-- Take one sample: a failure leaves the monitor as it is and reports its level; a usage sets the
level and the last usage, and a change of level reaches every subscriber. -/
def check (m : Monitor) (sample : Except String Usage) : PressureLevel × Option String × Monitor :=
  match sample with
  | .error e => (m.level, some e, m)
  | .ok u =>
    let level := m.classify u.ratio
    let subs := if level != m.level then
        m.subscribers.map (·.deliver ⟨level, m.level, u⟩)
      else m.subscribers
    (level, none, { m with level, last := u, subscribers := subs })

/-- Start the sampling loop; only one may run at a time. -/
def start (m : Monitor) : Except String Monitor :=
  if m.running then .error "monitor: already running" else .ok { m with running := true }

/-- Stop the sampling loop. -/
def stop (m : Monitor) : Monitor :=
  { m with running := false }

end Monitor

end Timetabling
