import Timetabling.Text.Unicode

/-! # Log levels

A logger writes the entries at or above its level. In development the level is `debug`, in
production `info`; a configured level replaces it, and one that does not name a level means
`info`. Level names are read in lower or upper case, and otherwise after lowering their case. -/

namespace Timetabling

/-- The levels of log entries, least severe first. -/
inductive LogLevel where
  | debug
  | info
  | warn
  | error
  | dpanic
  | panic
  | fatal
deriving Repr, DecidableEq, Inhabited

namespace LogLevel

/-- The severity of a level. -/
def rank : LogLevel → Nat
  | .debug => 0
  | .info => 1
  | .warn => 2
  | .error => 3
  | .dpanic => 4
  | .panic => 5
  | .fatal => 6

/-- The name of a level, in lower case. -/
def name : LogLevel → String
  | .debug => "debug"
  | .info => "info"
  | .warn => "warn"
  | .error => "error"
  | .dpanic => "dpanic"
  | .panic => "panic"
  | .fatal => "fatal"

/-- The level a name spells exactly, in lower or upper case. -/
def ofExactName? : String → Option LogLevel
  | "debug" | "DEBUG" => some .debug
  | "info" | "INFO" | "" => some .info
  | "warn" | "WARN" => some .warn
  | "error" | "ERROR" => some .error
  | "dpanic" | "DPANIC" => some .dpanic
  | "panic" | "PANIC" => some .panic
  | "fatal" | "FATAL" => some .fatal
  | _ => none

/-- The level a name spells, trying it as written and then in lower case. -/
def ofName? (s : String) : Option LogLevel :=
  match ofExactName? s with
  | some l => some l
  | none => ofExactName? (Text.lower s)

/-- The level of a logger for an environment and a configured level name. -/
def threshold (env configured : String) : LogLevel :=
  if configured.isEmpty then (if env == "production" then .info else .debug)
  else (ofName? configured).getD .info

/-- Whether a logger at a threshold writes entries of a level. -/
def writes (threshold l : LogLevel) : Bool :=
  threshold.rank ≤ l.rank

end LogLevel

end Timetabling
