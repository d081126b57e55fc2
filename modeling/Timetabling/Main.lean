import Timetabling.Startup
import Timetabling.Service.Session
import Timetabling.Clustering.Louvain

/-! # The service's command line

The service reads its settings from the environment and from a `.env` file in the working
directory, reads the strategy table and dataset files they name, and starts. A failed start
writes its reason and exits with status 1. A started service answers requests, one JSON request
`{method, path, headers?, body?}` a line on standard input, with one JSON response
`{status, headers, body}` a line on standard output, until its input ends; it then shuts down
and exits with status 0. Log entries are written to standard error. -/

open Timetabling

/-- The `.env` file of the working directory. -/
def readDotenv : IO DotenvFile := do
  try pure (.present (← IO.FS.readFile ".env"))
  catch e => match e with
    | .noFileOrDirectory .. => pure .absent
    | _ => pure .directory

/-- The contents of a file, if it can be read. -/
def readFile? (path : String) : IO (Option String) := do
  try pure (some (← IO.FS.readFile path)) catch _ => pure none

/-- Write log entries, the last one with the reason of a fatal failure. -/
def writeLog (messages : List String) (fatal : Option String) : IO Unit := do
  let err ← IO.getStderr
  match messages, fatal with
  | [], some reason => err.putStrLn reason
  | _, _ =>
    for (m, i) in messages.zipIdx do
      let reason := if i + 1 == messages.length then fatal else none
      err.putStrLn (Json.object ([("msg", .string m)] ++ (reason.map fun r => ("error", .string r)).toList)).render
  err.flush

/-- Answer requests from standard input until it ends. -/
partial def serve (input output : IO.FS.Stream) (origin : Nat) (s : Service) : IO Service := do
  let line ← input.getLine
  if line.isEmpty then return s
  let now ← IO.monoMsNow
  let s := s.advance (now - origin)
  match (Json.parse? (line.trimAscii.toString)).map Json.asSessionStep with
  | some (.ok (some (.exchange req))) =>
    let (resp, s) := s.handle req
    output.putStrLn (Json.object [("status", .nat resp.status),
      ("headers", .object (resp.headers.map fun (k, v) => (k, .string v))), ("body", .string resp.body)]).render
    output.flush
    serve input output origin s
  | _ =>
    if !(line.trimAscii.toString).isEmpty then
      output.putStrLn (Json.object [("status", .nat 400), ("body", .string "unreadable request")]).render
      output.flush
    serve input output origin s

def main : IO UInt32 := do
  let env ← Settings.environmentNames.filterMapM fun n => do pure ((← IO.getEnv n).map (n, ·))
  let sources : SettingSources := ⟨env, ← readDotenv⟩
  let named := match Settings.load sources with
    | .ok cfg => [cfg.engine.strategyTablePath, cfg.engine.datasetPath].filter fun (p : String) => !p.isEmpty
    | .error _ => []
  let files ← named.filterMapM fun p => do pure ((← readFile? p).map (p, ·))
  match ({ sources, files } : Launch).start with
  | .error r =>
    writeLog r.messages r.fatal
    return (if r.exitCode < 0 then 1 else r.exitCode.toNat.toUInt32)
  | .ok serving =>
    writeLog serving.written none
    let memory ← readFile? "/proc/meminfo"
    let cfg := serving.settings
    let reading := memoryOfMeminfo (memory.getD "")
    let profile := (HardwareProfile.detect 1 reading cfg.monitor.memoryLimitBytes
      cfg.engine.gpuOverride false).toOption.getD {}
    let sample := fun (_ : Nat) => reading.map fun (total, available) =>
      Usage.ofHost (total - available) total cfg.monitor.memoryLimitBytes
    let dataset := (files.find? (·.1 == cfg.engine.datasetPath)).map (·.2)
    -- runs find communities by the Louvain method, and read no clock, so no search deadline passes
    let service := serving.service profile (serving.probe sample) dataset Louvain.detector fun _ _ => false
    let _ ← serve (← IO.getStdin) (← IO.getStdout) (← IO.monoMsNow) service
    let r := serving.stop
    writeLog (r.messages.drop serving.written.length) none
    return 0
