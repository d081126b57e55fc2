import Timetabling.Config.Network
import Timetabling.Config.Logging
import Timetabling.Strategy.Table
import Timetabling.Monitor
import Timetabling.Service.Api

/-! # Starting the service

Starting the service takes these steps in order, and the first that fails ends the start:

1. load the settings from the environment and the `.env` file;
2. connect to the database, when Q-tables are kept there or no dataset file is configured;
3. connect to Redis, when it is enabled;
4. check that a Q-table backend in Redis has Redis enabled;
5. build the memory monitor from its thresholds;
6. load the strategy table, when a file is configured;
7. detect the hardware, start the job queue and listen on the configured port.

A failure to load the settings ends the process before it has a logger. Any later failure is
logged as `server failed` with its reason, after the job queue (when it was started) has been
stopped. A service that listens runs until it is told to stop: it then logs `shutting down`,
stops its queue and exits cleanly.

The logger writes `hardware profile`, `queue started`, `queue stopped`, `server starting` and
`shutting down` at the info level, and `server failed` at the fatal level; entries below the
logger's level are not written. A start counts as started when `server starting` was written. -/

namespace Timetabling

/-- What the service is started with. -/
structure Launch where
  sources : SettingSources
  /-- The files the service can read, by path. -/
  files : List (String × String) := []
  network : Network := Network.offline
  /-- The address Redis is reached at, when it is not the configured one. -/
  redisAddress : Option String := none
  /-- Whether the service is told to stop once it is serving. -/
  stopRequested : Bool := false

/-- How a start ended: whether the service started, its exit code (`-1` when it was still serving
and had to be killed), the reason of a fatal failure, and the log messages written, in order. -/
structure StartReport where
  started : Bool
  exitCode : Int
  fatal : Option String
  messages : List String
deriving Repr

namespace Launch

/-- Read a file the service was given. -/
def read (l : Launch) (path : String) : Except String String :=
  match l.files.find? (·.1 == path) with
  | some (_, text) => .ok text
  | none => .error ("open " ++ path ++ ": no such file or directory")

/-- The steps before serving: connections, checks, the monitor and the strategy table. -/
def prepare (l : Launch) (cfg : Settings) : Except String Unit := do
  let backend := cfg.engine.qtableBackend
  if backend == "postgres" || cfg.engine.datasetPath.isEmpty then
    match cfg.database.connect l.network with
    | .error e => throw ("connect postgres: " ++ e)
    | .ok () => pure ()
  let redis ← match cfg.redis.connectAt l.network (l.redisAddress.getD cfg.redis.address) with
    | .error e => throw ("connect redis: " ++ e)
    | .ok c => pure c
  if backend == "redis" && !redis then throw "redis qtable backend requires REDIS_ENABLED"
  match Monitor.create cfg.monitor.warningRatio cfg.monitor.criticalRatio with
  | .error e => throw ("init memory monitor: " ++ e)
  | .ok _ => pure ()
  let path := cfg.engine.strategyTablePath
  if !path.isEmpty then
    match l.read path with
    | .error e => throw ("load strategy table: read strategy table: " ++ e)
    | .ok text =>
      match StrategyTable.ofYaml text with
      | .error e => throw ("load strategy table: " ++ e)
      | .ok _ => pure ()

/-- Whether the service can listen on a port. -/
def listens (port : Int) : Bool :=
  0 ≤ port && port ≤ 65535

/-- The strategy table the settings name: the built-in one when they name no file. -/
def table (l : Launch) (cfg : Settings) : StrategyTable :=
  let path := cfg.engine.strategyTablePath
  if path.isEmpty then StrategyTable.builtin
  else ((l.read path).toOption.bind fun text => (StrategyTable.ofYaml text).toOption).getD StrategyTable.builtin

end Launch

/-- The total and available memory in bytes that a `/proc/meminfo` text reports. -/
def memoryOfMeminfo (text : String) : Except String (Nat × Nat) :=
  let kib (key : String) : Option Nat :=
    (text.splitOn "\n").findSome? fun line =>
      match line.splitOn ":" with
      | [k, v] =>
        if k.trimAscii.toString == key then
          match (v.trimAscii.toString.splitOn " ").head? >>= String.toNat? with
          | some n => some (n * 1024)
          | none => none
        else none
      | _ => none
  match kib "MemTotal", kib "MemAvailable" with
  | some total, some available => .ok (total, available)
  | _, _ => .error "meminfo: missing MemTotal or MemAvailable"

/-- A service that started: its settings, its strategy table, and the messages written. -/
structure Serving where
  settings : Settings
  table : StrategyTable
  written : List String

namespace Serving

/-- The level of the service's logger. -/
def level (s : Serving) : LogLevel :=
  LogLevel.threshold s.settings.env s.settings.logLevel

/-- Whether `server starting` was written. -/
def started (s : Serving) : Bool :=
  s.level.writes .info

/-- Stop a service that is serving: it shuts down, stops its queue and exits cleanly. -/
def stop (s : Serving) : StartReport :=
  let later := ["shutting down", "queue stopped"].filter fun _ => s.level.writes .info
  ⟨s.started, 0, none, s.written ++ later⟩

/-- The memory probe of a started service: its monitor's thresholds over a sampler. -/
def probe (s : Serving) (sample : Nat → Except String Usage) : Option MemoryProbe :=
  (Monitor.create s.settings.monitor.warningRatio s.settings.monitor.criticalRatio).toOption.map
    fun m => { monitor := m, sample }

/-- The generation service a start assembles, with a hardware profile, a memory probe, the
dataset file's contents, if a dataset file is configured and could be read, and what its runs take
from outside the engine: a graph library and the solver's clock. -/
def service (s : Serving) (profile : HardwareProfile) (probe : Option MemoryProbe) (dataset : Option String)
    (detector : Detector) (pastDeadline : Cluster → Nat → Bool) : Service :=
  let cfg := s.settings
  let ms (ns : Int) : Int := ns / 1000000
  let settings : ServiceSettings :=
    { defaultQuality := cfg.engine.defaultQuality, seed := (cfg.engine.seed % Int.pow 2 64).toNat
      scope := cfg.engine.qtableScope, resultTtl := ms cfg.engine.resultTtl, profile
      queue := ⟨cfg.jobs.workers, cfg.jobs.bufferSize, cfg.jobs.maxRetries, ms cfg.jobs.retryDelay⟩
      pipeline := { detector, pastDeadline, table := s.table, edgeThreshold := cfg.engine.edgeThreshold,
                    maxClusterSize := cfg.engine.maxClusterSize }
      origins := cfg.allowedOrigins.getD [], apiPrefix := cfg.apiPrefix }
  let source : RecordSource :=
    if cfg.engine.datasetPath.isEmpty then .database else .fixture ⟨cfg.engine.datasetPath, dataset⟩
  Service.create settings .disabled source {} probe {} {} 0

end Serving

namespace Launch

/-- Start the service: the report of a failed start, or the service serving. -/
def start (l : Launch) : Except StartReport Serving :=
  match Settings.load l.sources with
  | .error e => .error ⟨false, 1, some ("failed to load config: " ++ e), []⟩
  | .ok cfg =>
    let level := LogLevel.threshold cfg.env cfg.logLevel
    let log (lvl : LogLevel) (msg : String) (written : List String) : List String :=
      if level.writes lvl then written ++ [msg] else written
    match l.prepare cfg with
    | .error e => .error ⟨false, 1, some e, log .fatal "server failed" []⟩
    | .ok () =>
      let written := ([] : List String) |> log .info "hardware profile" |> log .info "queue started"
        |> log .info "server starting"
      if !listens cfg.port then
        .error ⟨level.writes .info, 1, some ("listen tcp: address " ++ toString cfg.port ++ ": invalid port"),
          written |> log .info "queue stopped" |> log .fatal "server failed"⟩
      else .ok ⟨cfg, l.table cfg, written⟩

/-- Start the service and follow it until it exits: a service that serves is stopped when a stop
was requested and it wrote that it was starting, and otherwise still serves when it is killed. -/
def run (l : Launch) : StartReport :=
  match l.start with
  | .error r => r
  | .ok s => if l.stopRequested && s.started then s.stop else ⟨s.started, -1, none, s.written⟩

end Launch

end Timetabling
