import Timetabling.Config.Dotenv
import Timetabling.Number.Literal
import Timetabling.Strategy.Basic
import Timetabling.Text.Duration
import Timetabling.Json.Basic

/-! # Service settings

The service reads its settings from environment variables, from a `.env` file in its working
directory, and from built-in defaults, in that order of precedence. An environment variable set
to the empty text counts as unset. The `.env` file is read twice: once to fill unset environment
variables (where a malformed file is ignored), and once as a settings source (where a malformed
file refuses to start). Names in the file match settings regardless of case.

Text becomes a typed setting leniently: an integer that does not read is zero (a decimal with only
zeros after the point reads as its integer part), a float that does not read is zero, a boolean
that does not read is false, and a duration that does not read takes the setting's default. -/

namespace Timetabling

/-- The `.env` file of the working directory. -/
inductive DotenvFile where
  | absent
  /-- A directory stands where the file should be. -/
  | directory
  | present (text : String)
deriving Repr, Inhabited

/-- A raw setting: text from the environment or a file, or a typed default. -/
inductive RawSetting where
  | text (s : String)
  | int (n : Int)
  | real (x : Float)
  | flag (b : Bool)
deriving Repr, Inhabited

namespace RawSetting

/-- Drop a fraction made only of zeros: `12.00` reads as `12`. -/
def dropZeroFraction (s : String) : String :=
  let cs := s.toList.reverse
  let zeros := cs.takeWhile (· == '0')
  match cs.dropWhile (· == '0') with
  | '.' :: rest => if zeros.isEmpty then s else String.ofList rest.reverse
  | _ => s

/-- The setting as text. -/
def asText : RawSetting → String
  | .text s => s
  | .int n => toString n
  | .real x => toString x
  | .flag b => if b then "true" else "false"

/-- The setting as a signed integer. -/
def asInt : RawSetting → Int
  | .text s => (IntLiteral.parse? (dropZeroFraction s)).getD 0
  | .int n => n
  | .real x => truncToInt64 x
  | .flag b => if b then 1 else 0

/-- The setting as an unsigned integer; a negative value reads as zero. -/
def asNat (r : RawSetting) : Nat :=
  r.asInt.toNat

/-- The setting as a float. -/
def asFloat : RawSetting → Float
  | .text s => (FloatLiteral.parse? s).getD 0
  | .int n => Float.ofInt n
  | .real x => x
  | .flag b => if b then 1 else 0

/-- The setting as a boolean. -/
def asBool : RawSetting → Bool
  | .text s => (parseBoolText? s).getD false
  | .int n => n != 0
  | .real x => x != 0
  | .flag b => b

/-- The setting as a duration in nanoseconds, or `fallback` when it is empty or does not read. -/
def asDuration (r : RawSetting) (fallback : Int) : Int :=
  let s := r.asText
  if s.isEmpty then fallback else (Duration.parse? s).getD fallback

end RawSetting

/-- Where settings come from: the environment and the `.env` file. -/
structure SettingSources where
  environment : List (String × String)
  dotenv : DotenvFile := .absent
deriving Repr, Inhabited

/-- Settings resolved from their sources. -/
structure SettingLookup where
  environment : List (String × String)
  file : List (String × String)

namespace SettingLookup

/-- The raw value of a setting: a non-empty environment variable, else the file's value, else
the default. -/
def get (l : SettingLookup) (name : String) (default : RawSetting) : RawSetting :=
  match l.environment.reverse.find? (·.1 == name) with
  | some (_, v) =>
    if !v.isEmpty then .text v
    else match l.file.reverse.find? (·.1.toLower == name.toLower) with
      | some (_, v) => .text v
      | none => default
  | none => match l.file.reverse.find? (·.1.toLower == name.toLower) with
    | some (_, v) => .text v
    | none => default

end SettingLookup

namespace SettingSources

/-- Resolve the sources: the environment after the file fills its unset variables, and the
file's own settings. -/
def resolve (src : SettingSources) : Except String SettingLookup :=
  match src.dotenv with
  | .absent => .ok ⟨src.environment, []⟩
  | .directory => .error "read .env: is a directory"
  | .present text =>
    let envLookup (env : List (String × String)) (name : String) : Option String :=
      (env.reverse.find? (·.1 == name)).map (·.2)
    let filled := match Dotenv.load text with
      | .ok entries =>
        src.environment ++ entries.filter fun (k, _) => !k.isEmpty && !(src.environment.any (·.1 == k))
      | .error _ => src.environment
    match Dotenv.parse (envLookup filled) text with
    | .error e => .error ("While parsing config: " ++ e)
    | .ok entries => .ok ⟨filled, entries⟩

end SettingSources

/-- Database connection settings. -/
structure DatabaseSettings where
  host : String
  port : Int
  user : String
  password : String
  name : String
  sslMode : String
  maxOpenConns : Int
  maxIdleConns : Int
deriving Repr, Inhabited

/-- Redis connection settings. -/
structure RedisSettings where
  enabled : Bool
  host : String
  port : Int
  password : String
  db : Int
deriving Repr, Inhabited

/-- Engine settings that hold across hardware tiers. Durations are in nanoseconds. -/
structure EngineSettings where
  defaultQuality : String
  seed : Int
  edgeThreshold : Float
  maxClusterSize : Int
  strategyTablePath : String
  qtableBackend : String
  qtableScope : String
  resultTtl : Int
  gpuOverride : String
  datasetPath : String
deriving Repr, Inhabited

/-- Memory monitor settings. -/
structure MonitorSettings where
  interval : Int
  warningRatio : Float
  criticalRatio : Float
  memoryLimitBytes : Nat
deriving Repr, Inhabited

/-- Job queue settings. -/
structure JobSettings where
  workers : Int
  bufferSize : Int
  maxRetries : Int
  retryDelay : Int
deriving Repr, Inhabited

/-- Progress fan-out settings. -/
structure ProgressSettings where
  redisChannel : String
  publish : Bool
deriving Repr, Inhabited

/-- All settings of the service. -/
structure Settings where
  env : String
  port : Int
  apiPrefix : String
  database : DatabaseSettings
  redis : RedisSettings
  allowedOrigins : Option (List String)
  logLevel : String
  logFormat : String
  engine : EngineSettings
  monitor : MonitorSettings
  jobs : JobSettings
  progress : ProgressSettings
deriving Repr, Inhabited

namespace Settings

/-- Split a comma-separated list, trimming items and dropping empty ones; empty text is no list. -/
def splitList (raw : String) : Option (List String) :=
  if raw.isEmpty then none
  else some (((raw.splitOn ",").map Text.trimSpace).filter (· != ""))

/-- Nanoseconds in a millisecond and in a second. -/
def millisecond : Int := 1000000
def second : Int := 1000000000

/-- Read the settings from resolved sources. -/
def ofLookup (l : SettingLookup) : Settings :=
  let g := l.get
  { env := (g "ENV" (.text "development")).asText
    port := (g "PORT" (.int 8080)).asInt
    apiPrefix := (g "API_PREFIX" (.text "/api/v1")).asText
    database :=
      { host := (g "DB_HOST" (.text "localhost")).asText, port := (g "DB_PORT" (.int 5432)).asInt
        user := (g "DB_USER" (.text "postgres")).asText, password := (g "DB_PASSWORD" (.text "postgres")).asText
        name := (g "DB_NAME" (.text "timetable_engine")).asText
        sslMode := (g "DB_SSL_MODE" (.text "disable")).asText
        maxOpenConns := (g "DB_MAX_OPEN_CONNS" (.int 10)).asInt
        maxIdleConns := (g "DB_MAX_IDLE_CONNS" (.int 5)).asInt }
    redis :=
      { enabled := (g "REDIS_ENABLED" (.flag false)).asBool, host := (g "REDIS_HOST" (.text "localhost")).asText
        port := (g "REDIS_PORT" (.int 6379)).asInt, password := (g "REDIS_PASSWORD" (.text "")).asText
        db := (g "REDIS_DB" (.int 0)).asInt }
    allowedOrigins := splitList (g "ALLOWED_ORIGINS" (.text "")).asText
    logLevel := (g "LOG_LEVEL" (.text "info")).asText
    logFormat := (g "LOG_FORMAT" (.text "json")).asText
    engine :=
      { defaultQuality := Text.lower (g "ENGINE_DEFAULT_QUALITY" (.text "balanced")).asText
        seed := (g "ENGINE_SEED" (.int 42)).asInt
        edgeThreshold := (g "ENGINE_EDGE_THRESHOLD" (.real 1.0)).asFloat
        maxClusterSize := (g "ENGINE_MAX_CLUSTER_SIZE" (.int 24)).asInt
        strategyTablePath := (g "ENGINE_STRATEGY_TABLE" (.text "")).asText
        qtableBackend := Text.lower (g "ENGINE_QTABLE_BACKEND" (.text "memory")).asText
        qtableScope := (g "ENGINE_QTABLE_SCOPE" (.text "default")).asText
        resultTtl := (g "ENGINE_RESULT_TTL" (.text "1h")).asDuration (3600 * second)
        gpuOverride := (g "TIMETABLE_GPU" (.text "")).asText
        datasetPath := (g "ENGINE_DATASET_PATH" (.text "")).asText }
    monitor :=
      { interval := (g "MONITOR_INTERVAL" (.text "500ms")).asDuration (500 * millisecond)
        warningRatio := (g "MONITOR_WARNING_RATIO" (.real 0.80)).asFloat
        criticalRatio := (g "MONITOR_CRITICAL_RATIO" (.real 0.92)).asFloat
        memoryLimitBytes := (g "MONITOR_MEMORY_LIMIT_BYTES" (.int 0)).asNat }
    jobs :=
      { workers := (g "JOBS_WORKERS" (.int 1)).asInt, bufferSize := (g "JOBS_BUFFER_SIZE" (.int 16)).asInt
        maxRetries := (g "JOBS_MAX_RETRIES" (.int 1)).asInt
        retryDelay := (g "JOBS_RETRY_DELAY" (.text "1s")).asDuration second }
    progress :=
      { redisChannel := (g "PROGRESS_REDIS_CHANNEL" (.text "timetable:progress")).asText
        publish := (g "PROGRESS_PUBLISH" (.flag false)).asBool } }

/-- The environment variables the settings are read from. -/
def environmentNames : List String :=
  ["ENV", "PORT", "API_PREFIX", "DB_HOST", "DB_PORT", "DB_USER", "DB_PASSWORD", "DB_NAME", "DB_SSL_MODE",
   "DB_MAX_OPEN_CONNS", "DB_MAX_IDLE_CONNS", "REDIS_ENABLED", "REDIS_HOST", "REDIS_PORT", "REDIS_PASSWORD",
   "REDIS_DB", "ALLOWED_ORIGINS", "LOG_LEVEL", "LOG_FORMAT", "ENGINE_DEFAULT_QUALITY", "ENGINE_SEED",
   "ENGINE_EDGE_THRESHOLD", "ENGINE_MAX_CLUSTER_SIZE", "ENGINE_STRATEGY_TABLE", "ENGINE_QTABLE_BACKEND",
   "ENGINE_QTABLE_SCOPE", "ENGINE_RESULT_TTL", "TIMETABLE_GPU", "ENGINE_DATASET_PATH", "MONITOR_INTERVAL",
   "MONITOR_WARNING_RATIO", "MONITOR_CRITICAL_RATIO", "MONITOR_MEMORY_LIMIT_BYTES", "JOBS_WORKERS",
   "JOBS_BUFFER_SIZE", "JOBS_MAX_RETRIES", "JOBS_RETRY_DELAY", "PROGRESS_REDIS_CHANNEL", "PROGRESS_PUBLISH"]

/-- Load the settings from their sources. -/
def load (src : SettingSources) : Except String Settings :=
  src.resolve.map ofLookup

/-- The JSON form of the settings, under the names of the settings record's fields. -/
def toJson (c : Settings) : Json :=
  let d := c.database
  let r := c.redis
  let e := c.engine
  let m := c.monitor
  let j := c.jobs
  .object [("Env", .string c.env), ("Port", .int c.port), ("APIPrefix", .string c.apiPrefix),
    ("Database", .object [("Host", .string d.host), ("Port", .int d.port), ("User", .string d.user),
      ("Password", .string d.password), ("Name", .string d.name), ("SSLMode", .string d.sslMode),
      ("MaxOpenConns", .int d.maxOpenConns), ("MaxIdleConns", .int d.maxIdleConns)]),
    ("Redis", .object [("Enabled", .bool r.enabled), ("Host", .string r.host), ("Port", .int r.port),
      ("Password", .string r.password), ("DB", .int r.db)]),
    ("CORS", .object [("AllowedOrigins", match c.allowedOrigins with
      | some xs => Json.strings xs
      | none => .null)]),
    ("Log", .object [("Level", .string c.logLevel), ("Format", .string c.logFormat)]),
    ("Engine", .object [("DefaultQuality", .string e.defaultQuality), ("Seed", .int e.seed),
      ("EdgeThreshold", Json.float e.edgeThreshold), ("MaxClusterSize", .int e.maxClusterSize),
      ("StrategyTablePath", .string e.strategyTablePath), ("QTableBackend", .string e.qtableBackend),
      ("QTableScope", .string e.qtableScope), ("ResultTTL", .int e.resultTtl),
      ("GPUOverride", .string e.gpuOverride), ("DatasetPath", .string e.datasetPath)]),
    ("Monitor", .object [("Interval", .int m.interval), ("WarningRatio", Json.float m.warningRatio),
      ("CriticalRatio", Json.float m.criticalRatio), ("MemoryLimitBytes", .nat m.memoryLimitBytes)]),
    ("Jobs", .object [("Workers", .int j.workers), ("BufferSize", .int j.bufferSize),
      ("MaxRetries", .int j.maxRetries), ("RetryDelay", .int j.retryDelay)]),
    ("Progress", .object [("RedisChannel", .string c.progress.redisChannel),
      ("Publish", .bool c.progress.publish)])]

end Settings

/-- The connection string of the database. -/
def DatabaseSettings.dsn (d : DatabaseSettings) : String :=
  "host=" ++ d.host ++ " port=" ++ toString d.port ++ " user=" ++ d.user ++ " password=" ++ d.password ++
    " dbname=" ++ d.name ++ " sslmode=" ++ d.sslMode

/-- The address of the Redis server. -/
def RedisSettings.address (r : RedisSettings) : String :=
  r.host ++ ":" ++ toString r.port

end Timetabling
