import Timetabling.Service.Api
import Timetabling.Strategy.Table

/-! # Sessions with the service

A session runs steps against one service: requests, and an operator's actions: waiting until
every accepted job has ended, waiting until runs reach the gate, giving the gate permits,
restarting the service over the same stores, letting time pass, listening for published progress,
and reading what the database was sent.

A session names the jobs the service accepted by the order of acceptance, `{job1}`, `{job2}`, …:
steps use these names in paths and bodies, and the answers use them in place of the identifiers
the service gave. A job is accepted when a `POST` other than a cancellation answers `202` with a
`job_id` not seen before.

A service is assembled from a deployment: its settings, its result cache, where records and
Q-tables are kept, and the memory probe it shares with its metrics. -/

namespace Timetabling

/-- How a service is assembled. -/
structure Deployment where
  settings : ServiceSettings
  cache : ResultCache := .absent
  source : RecordSource := .none
  storage : Storage := {}
  probe : Option MemoryProbe := none

/-- A step of a session. -/
inductive SessionStep where
  | exchange (req : HttpRequest)
  /-- Wait until every accepted job has ended. -/
  | settle
  /-- Wait until this many runs have reached the gate. -/
  | awaitRunning (n : Nat)
  | release (n : Nat)
  | restart
  | sleep (ms : Nat)
  /-- Listen for this many published progress messages. -/
  | listen (n : Nat)
  /-- Read the log of the database. -/
  | queries

/-- A session: the service and the jobs it accepted, in order. -/
structure Session where
  service : Service
  jobs : List String := []

namespace Json

mutual

/-- Apply a function to every string value of a document. -/
def mapStrings (f : String → String) : Json → Json
  | .string s => .string (f s)
  | .array items => .array (mapStringItems f items)
  | .object members => .object (mapStringMembers f members)
  | j => j

/-- Apply a function to every string value of array items. -/
def mapStringItems (f : String → String) : List Json → List Json
  | [] => []
  | v :: vs => mapStrings f v :: mapStringItems f vs

/-- Apply a function to every string value of object members. -/
def mapStringMembers (f : String → String) : List (String × Json) → List (String × Json)
  | [] => []
  | (k, v) :: ms => (k, mapStrings f v) :: mapStringMembers f ms

end

/-- A deployment, `{default_quality, seed, qtable_scope, result_ttl_ms, profile, workers,
buffer_size, max_retries, retry_delay_ms, table_yaml, edge_threshold, max_cluster_size,
progress_every, monitor, allowed_origins, api_prefix, qtable_backend, db_script, cache, source,
source_yaml, gate, no_start, no_metrics}`, whose runs find communities with the graph library
`detector` and read the solver's clock `pastDeadline`; a strategy table or monitor that cannot be
built is refused with its reason. -/
def asDeployment (detector : Detector) (pastDeadline : Cluster → Nat → Bool) (j : Json) :
    Except DecodeError (Except String Deployment) := do
  let j ← asRecord j
  let probe ← j.getOpt "monitor" asReplayProbe
  let yaml ← j.get "table_yaml" asString
  let database ← j.get "db_script" asScript
  let prefix_ ← j.get "api_prefix" asString
  let fixture ← j.get "source_yaml" asString
  let settings : ServiceSettings :=
    { defaultQuality := ← j.get "default_quality" asString, seed := ← j.get "seed" asUInt64
      scope := ← j.get "qtable_scope" asString, resultTtl := ← j.get "result_ttl_ms" asInt
      profile := (← j.getOpt "profile" asHardwareProfile).getD {}
      queue := { workers := ← j.get "workers" asInt, bufferSize := ← j.get "buffer_size" asInt,
                 maxRetries := ← j.get "max_retries" asInt, retryDelay := ← j.get "retry_delay_ms" asInt }
      pipeline := { detector, pastDeadline, edgeThreshold := ← j.get "edge_threshold" asFloat,
                    maxClusterSize := ← j.get "max_cluster_size" asInt,
                    progressEvery := ← j.get "progress_every" asInt }
      origins := ← j.get "allowed_origins" (asList asString)
      apiPrefix := if prefix_.isEmpty then "/api/v1" else prefix_
      gated := ← j.get "gate" asBool, start := !(← j.get "no_start" asBool)
      metrics := !(← j.get "no_metrics" asBool) }
  let cache : ResultCache := match ← j.get "cache" asString with
    | "disabled" => .disabled
    | "redis" | "progress_publish" => .unreachable
    | _ => .absent
  let source : RecordSource := match ← j.get "source" asString with
    | "file" => .fixture ⟨"<file>", some fixture⟩
    | "missing_file" => .fixture ⟨"missing.yaml", none⟩
    | "db" => .database
    | _ => .none
  let backend : TableBackend := match ← j.get "qtable_backend" asString with
    | "redis" => .unreachable
    | "postgres" => .database
    | _ => .memory
  pure do
    let table ← if yaml.isEmpty then pure StrategyTable.builtin else StrategyTable.ofYaml yaml
    let probe ← match probe with
      | none => pure none
      | some p => some <$> p
    pure { settings := { settings with pipeline := { settings.pipeline with table } }, cache, source,
           storage := { backend, database }, probe }

/-- A step of a session: a request `{method, path, body?, raw?, headers?}`, or one of
`{wait}`, `{await_running}`, `{release}`, `{restart}`, `{sleep_ms}`, `{messages}` and `{queries}`;
`none` for a step that is none of these. -/
def asSessionStep (j : Json) : Except DecodeError (Option SessionStep) := do
  let j ← asRecord j
  let method ← j.get "method" asString
  if !method.isEmpty then
    let body ← match j.field? "body" with
      | none | some .null => (j.getOpt "raw" asString)
      | some b => pure (some b.render)
    let path ← j.get "path" asString
    let headers ← j.get "headers" (asMap asString)
    pure (some (.exchange { method, path, body, headers }))
  else if ← j.get "wait" asBool then pure (some .settle)
  else
    let count (k : String) : Except DecodeError Nat := do pure (← j.get k asInt).toNat
    if (← count "await_running") > 0 then pure (some (.awaitRunning (← count "await_running")))
    else if (← count "release") > 0 then pure (some (.release (← count "release")))
    else if ← j.get "restart" asBool then pure (some .restart)
    else if (← count "sleep_ms") > 0 then pure (some (.sleep (← count "sleep_ms")))
    else if (← count "messages") > 0 then pure (some (.listen (← count "messages")))
    else if ← j.get "queries" asBool then pure (some .queries)
    else pure none

end Json

namespace Session

/-- How long an operator waits for jobs to end, in milliseconds. -/
def settleLimit : Nat := 20000

/-- How long an operator waits for runs to reach the gate, in milliseconds. -/
def gateLimit : Nat := 10000

/-- How long an operator listens for progress messages, in milliseconds. -/
def listenLimit : Nat := 3000

/-- A new session with a service assembled from a deployment. -/
def open_ (d : Deployment) : Session :=
  ⟨Service.create d.settings d.cache d.source d.storage d.probe {} {} 0, []⟩

/-- The name of the `i`-th accepted job, counting from zero. -/
def jobName (i : Nat) : String :=
  "\x7bjob" ++ toString (i + 1) ++ "\x7d"

/-- A text with the identifiers of accepted jobs replaced by their names. -/
def conceal (s : Session) (text : String) : String :=
  s.jobs.zipIdx.foldl (fun t (id, i) => t.replace id (jobName i)) text

/-- A text with the names of accepted jobs replaced by their identifiers. -/
def reveal (s : Session) (text : String) : String :=
  s.jobs.zipIdx.foldl (fun t (id, i) => t.replace (jobName i) id) text

/-- Whether a response header is shown in answers. -/
def shown (name : String) : Bool :=
  ["Location", "Cache-Control", "Pragma", "Content-Type", "Vary", "X-Request-ID"].contains name ||
    name.startsWith "Access-Control-"

/-- The job a response accepts, if any. -/
def acceptedBy (s : Session) (req : HttpRequest) (resp : HttpResponse) : Option String :=
  if req.method == "POST" && (req.path.splitOn "/cancel").length == 1 && resp.status == 202 then
    match ((Json.parse? resp.body).bind (·.field? "data")).bind (·.field? "job_id") with
    | some (.string id) => if s.jobs.contains id then none else some id
    | _ => none
  else none

/-- Send a request and answer `{status, headers, body | lines | text}`: a JSON body as its value,
any other body of a path under `/metrics` as its lines, and any other body as text. A request
identifier in the form of a UUID is shown as `<generated>`. -/
def exchange (s : Session) (req : HttpRequest) : Json × Session :=
  let req := { req with path := s.reveal req.path, body := req.body.map s.reveal }
  let (resp, service) := s.service.handle req
  let s := { service, jobs := s.jobs ++ (s.acceptedBy req resp).toList }
  let headers := (resp.headers.filter (shown ·.1)).map fun (k, v) =>
    if k == "X-Request-ID" then (k, Json.string (if RequestId.isUuid v then "<generated>" else v))
    else (k, .string (s.conceal v))
  let content : List (String × Json) :=
    match Json.parse? resp.body with
    | some j => [("body", j.mapStrings s.conceal)]
    | none =>
      if req.path.startsWith "/metrics" then [("lines", .strings ((resp.body.splitOn "\n").filter (· != "")))]
      else if resp.body.isEmpty then [] else [("text", .string (s.conceal resp.body))]
  (.object ([("status", .nat resp.status), ("headers", .object headers)] ++ content), s)

/-- Take one step. -/
def step (s : Session) : SessionStep → Json × Session
  | .exchange req => s.exchange req
  | .settle =>
    let (ok, service) := s.service.waitUntil settleLimit Service.settled
    (.object [("settled", .bool ok)], { s with service })
  | .awaitRunning n =>
    let (ok, service) := s.service.waitUntil gateLimit fun v => decide (n ≤ v.gate.arrivals)
    (.object [("running", .bool ok)], { s with service })
  | .release n => (.object [("released", .nat n)], { s with service := s.service.release n })
  | .restart => (.object [("restarted", .bool true)], { s with service := s.service.restart })
  | .sleep ms =>
    (.object [("slept", .bool true)], { s with service := s.service.advance (s.service.clock.millis + ms) })
  | .listen _ =>
    (.object [("messages", .array [])],
      { s with service := s.service.advance (s.service.clock.millis + listenLimit) })
  | .queries => (.object [("queries", s.service.storage.database.logJson)], s)

/-- Run steps in order, answering each, then wait for the jobs to end. -/
def run (s : Session) (steps : List SessionStep) : List Json × Session :=
  let (answers, s) := steps.foldl (fun (acc, s) st => let (a, s) := s.step st; (acc ++ [a], s)) ([], s)
  let (_, service) := s.service.waitUntil settleLimit Service.settled
  (answers, { s with service })

end Session

end Timetabling
