import Timetabling.Strategy.Basic
import Timetabling.Yaml.Decode

/-! # Strategy tables from YAML

A strategy table may be overridden by a YAML document with a `tiers` mapping from tier names to
settings. Each tier it names replaces that tier's built-in settings whole, so a setting it leaves
out becomes zero; tiers it does not name keep their built-in settings. A tier name that is not a
tier, or settings with a negative worker count, population size, generation count or repair
iteration count, refuse the whole table. -/

namespace Timetabling

namespace TierSettings

/-- The shape of one tier's settings. -/
def shape : Shape :=
  .record "strategy.TierSettings" [("workers", .int), ("max_cluster_size", .int), ("exact", .bool),
    ("solver_timeout", .duration), ("node_budget", .int), ("population_size", .int),
    ("generations", .int), ("repair_iterations", .int)]

/-- Settings from their decoded form. -/
def ofJson (j : Json) : TierSettings :=
  let int (k : String) : Int := match j.field? k with
    | some (.number lit) => Json.integerValue lit
    | _ => 0
  { workers := int "workers", maxClusterSize := int "max_cluster_size",
    exact := match j.field? "exact" with
      | some (.bool b) => b
      | _ => false,
    solverTimeout := int "solver_timeout", nodeBudget := int "node_budget",
    populationSize := int "population_size", generations := int "generations",
    repairIterations := int "repair_iterations" }

/-- The JSON form of tier settings, the timeout in nanoseconds. -/
def toJson (s : TierSettings) : Json := .object [
  ("workers", .int s.workers), ("max_cluster_size", .int s.maxClusterSize), ("exact", .bool s.exact),
  ("solver_timeout", .int s.solverTimeout), ("node_budget", .int s.nodeBudget),
  ("population_size", .int s.populationSize), ("generations", .int s.generations),
  ("repair_iterations", .int s.repairIterations)]

/-- Whether any count that must not be negative is. -/
def hasNegative (s : TierSettings) : Bool :=
  s.workers < 0 || s.populationSize < 0 || s.generations < 0 || s.repairIterations < 0

end TierSettings

namespace StrategyTable

/-- The shape of a table document. -/
def documentShape : Shape :=
  .record "strategy.tableFile"
    [("tiers", .dict "strategy.Tier" TierSettings.shape "map[strategy.Tier]strategy.TierSettings")]

/-- The JSON form of a table: each tier's settings under its name. -/
def toJson (t : StrategyTable) : Json :=
  .object (Tier.all.map fun tier => (tier.name, (t.get tier).toJson))

/-- Apply decoded tier overrides to a table, in document order. -/
def override (t : StrategyTable) : List (String × Json) → Except String StrategyTable
  | [] => .ok t
  | (name, settings) :: rest =>
    match Tier.ofName? name with
    | none => .error ("strategy table: unknown tier " ++ Text.quoted name)
    | some tier =>
      let s := TierSettings.ofJson settings
      if s.hasNegative then .error ("strategy table: tier " ++ Text.quoted name ++ " has negative values")
      else override (t.set tier s) rest

/-- The built-in table with the overrides of a YAML document. -/
def ofYaml (text : String) : Except String StrategyTable :=
  match Yaml.decodeDocument documentShape text with
  | .error f => .error ("decode strategy table: " ++ f.message)
  | .ok doc =>
    match doc.field? "tiers" with
    | some (.object tiers) => override builtin tiers
    | _ => .ok builtin

end StrategyTable

end Timetabling
