import Timetabling.Monitor
import Timetabling.Catalog.Basic
import Timetabling.Json.Basic
import Timetabling.Text.Instant

/-! # Service metrics

The service counts the requests it serves by method, route and status, the stages its runs
went through, and its finished runs by terminal state with the sessions completed runs left
unscheduled. It shows them two ways: a summary for the status endpoint, and the text
exposition a metrics scraper reads.

The exposition lists metric families by name. A family that has no series yet is left out,
except plain counters and gauges, which always have their one series. Each family starts with
its help and type lines; a histogram's series are shown by their sample counts (bucket and sum
series are not part of this view), and the series of a family are ordered by their label values.
A summary of a service that was never built is all zero, with no run counts. -/

namespace Timetabling

/-- One served request: method, route (or `unmatched`) and status. -/
structure RequestLabel where
  method : String
  path : String
  status : Nat
deriving DecidableEq, Repr

/-- The counters of the metrics service. -/
structure Metrics where
  /-- Requests by label, in the order first seen. -/
  requests : List (RequestLabel × Nat) := []
  /-- Stage observations by stage name. -/
  stages : List (String × Nat) := []
  /-- Finished runs by terminal state, as labelled in the exposition. -/
  runs : List (String × Nat) := []
  completed : Nat := 0
  failed : Nat := 0
  cancelled : Nat := 0
  unscheduled : Nat := 0
  /-- Whether the gauges of a memory monitor are registered. -/
  hasMemory : Bool := false
deriving Repr

namespace Metrics

/-- Add one to the count of a key. -/
def bump {κ : Type} [DecidableEq κ] (xs : List (κ × Nat)) (k : κ) : List (κ × Nat) :=
  if xs.any (·.1 = k) then xs.map fun (k', n) => if k' = k then (k', n + 1) else (k', n)
  else xs ++ [(k, 1)]

/-- Record a served request. -/
def observeRequest (m : Metrics) (method path : String) (status : Nat) : Metrics :=
  { m with requests := bump m.requests ⟨method, path, status⟩ }

/-- Record one stage of a run. -/
def observeStage (m : Metrics) (stage : String) : Metrics :=
  { m with stages := bump m.stages stage }

/-- Record a finished run: `completed` and `cancelled` count as such, any other state as a
failure; a positive number of unscheduled sessions is added to their total. -/
def observeRun (m : Metrics) (state : String) (unscheduled : Int) : Metrics :=
  let m := { m with runs := bump m.runs state }
  let m := if state == "completed" then { m with completed := m.completed + 1 }
    else if state == "cancelled" then { m with cancelled := m.cancelled + 1 }
    else { m with failed := m.failed + 1 }
  if unscheduled > 0 then { m with unscheduled := m.unscheduled + unscheduled.toNat } else m

/-- The number of requests served. -/
def requestTotal (m : Metrics) : Nat :=
  m.requests.foldl (fun acc (_, n) => acc + n) 0

/-- The summary of a service, if there is one, reading the monitor when it has its gauges and
stamped with the time it was taken (a service never built stamps the zero time). -/
def summary (m : Option Metrics) (monitor : Option Monitor) (stamp : Instant) : Json :=
  match m with
  | none => .object [("requests_total", .nat 0), ("runs", .null), ("unscheduled_sessions", .nat 0),
      ("memory_used_bytes", .nat 0), ("memory_limit_bytes", .nat 0), ("memory_pressure", .string ""),
      ("generated_at", .string Instant.zeroText)]
  | some m =>
    let (used, limit, pressure) := match monitor with
      | some mon => if m.hasMemory then (mon.last.used, mon.last.limit, mon.level.name) else (0, 0, "")
      | none => (0, 0, "")
    .object [("requests_total", .nat m.requestTotal),
      ("runs", .object [("cancelled", .nat m.cancelled), ("completed", .nat m.completed),
        ("failed", .nat m.failed)]),
      ("unscheduled_sessions", .nat m.unscheduled), ("memory_used_bytes", .nat used),
      ("memory_limit_bytes", .nat limit), ("memory_pressure", .string pressure),
      ("generated_at", .string stamp.text)]

/-- The pressure level the service reports for health: empty without a monitor. -/
def pressure (m : Option Metrics) (monitor : Option Monitor) : String :=
  match m, monitor with
  | some m, some mon => if m.hasMemory then mon.level.name else ""
  | _, _ => ""

end Metrics

namespace Exposition

/-- A label value with backslashes, quotes and line breaks escaped. -/
def escape (s : String) : String :=
  s.foldl (fun acc c =>
    if c == '\\' then acc ++ "\\\\" else if c == '"' then acc ++ "\\\""
    else if c == '\n' then acc ++ "\\n" else acc.push c) ""

/-- A series line: name, labels and value. -/
def series (name : String) (labels : List (String × String)) (value : Nat) : String :=
  let ls := if labels.isEmpty then ""
    else "\x7b" ++ ",".intercalate (labels.map fun (k, v) => k ++ "=\"" ++ escape v ++ "\"") ++ "\x7d"
  name ++ ls ++ " " ++ FloatText.general (Float.ofNat value)

/-- The help and type lines of a family. -/
def header (name help kind : String) : List String :=
  ["# HELP " ++ name ++ " " ++ help, "# TYPE " ++ name ++ " " ++ kind]

/-- Whether one list of label values sorts before another. -/
def labelsBefore : List String → List String → Bool
  | a :: as, b :: bs => if a == b then labelsBefore as bs else decide (a < b)
  | [], _ :: _ => true
  | _, _ => false

/-- A family of labelled series ordered by label values; empty when it has no series. -/
def family (name help kind suffix : String) (labelNames : List String)
    (rows : List (List String × Nat)) : List String :=
  if rows.isEmpty then []
  else header name help kind ++
    (stableSort (fun a b => labelsBefore a.1 b.1) rows).map fun (vs, n) =>
      series (name ++ suffix) (labelNames.zip vs) n

end Exposition

namespace Metrics

/-- The exposition lines of a service, reading the monitor for its gauges. -/
def exposition (m : Metrics) (monitor : Option Monitor) : List String :=
  let reqRows := m.requests.map fun (l, n) => ([l.method, l.path, toString l.status], n)
  let memory := match monitor with
    | some mon => if m.hasMemory then
        Exposition.header "timetable_memory_pressure_level"
          "Memory pressure level: 0 normal, 1 warning, 2 critical" "gauge" ++
        [Exposition.series "timetable_memory_pressure_level" [] (match mon.level with
          | .normal => 0 | .warning => 1 | .critical => 2)] ++
        Exposition.header "timetable_memory_used_bytes" "Memory in use at the last monitor sample" "gauge" ++
        [Exposition.series "timetable_memory_used_bytes" [] mon.last.used]
      else []
    | none => []
  Exposition.header "goroutines_total" "Total number of goroutines" "gauge" ++
  Exposition.family "http_request_duration_seconds" "Duration of HTTP requests in seconds" "histogram"
    "_count" ["method", "path", "status"] reqRows ++
  Exposition.family "http_requests_total" "Total number of HTTP requests" "counter" ""
    ["method", "path", "status"] reqRows ++
  memory ++
  Exposition.family "timetable_runs_total" "Generation runs by terminal state" "counter" "" ["state"]
    (m.runs.map fun (s, n) => ([s], n)) ++
  Exposition.family "timetable_stage_duration_seconds" "Duration of pipeline stages" "histogram" "_count"
    ["stage"] (m.stages.map fun (s, n) => ([s], n)) ++
  Exposition.header "timetable_unscheduled_sessions_total" "Sessions left unscheduled by completed runs"
    "counter" ++ [Exposition.series "timetable_unscheduled_sessions_total" [] m.unscheduled]

end Metrics

end Timetabling
