import StagedQuery.Settings
import StagedQuery.Text.Blank

/-!
# Settings from the environment

Where a request brings no settings of its own, they are read from two variables
of the environment (`StagedQuery.Environment.settings`). A variable that is not
set leaves the standard value; one that is set must hold a numeral, with white
space around it allowed.
-/

namespace StagedQuery

/-- The variables of the environment that hold settings. -/
structure Environment where
  /-- The text set for the workers per server. -/
  workersPerServer : Option String := none
  /-- The text set for the most servers of a stage. -/
  serverLimit : Option String := none
  deriving DecidableEq, Repr

namespace Environment

/-- The variable that holds the workers per server. -/
def workersVariable : String := "MSQ_INTERMEDIATE_WORKERS_PER_SERVER"

/-- The variable that holds the most servers of a stage. -/
def serversVariable : String := "MSQ_MAX_INTERMEDIATE_SERVERS"

/-- The numeral below `bound` that a variable holds, white space around it
aside. -/
def readSetting (setting : String) (bound : Nat) (value : String) : Except PlanError Nat :=
  match Text.readNumeral bound (Text.trimBlank value.toList) with
  | .ok n => .ok n
  | .error fault => .error (.settings (.notANumber setting value fault))

/-- **The settings that the environment holds**, checked. -/
def settings (environment : Environment) : Except PlanError Settings := do
  let workersPerServer ← match environment.workersPerServer with
    | none => .ok Settings.standard.workersPerServer
    | some value => UInt32.ofNat <$> readSetting workersVariable UInt32.size value
  let serverLimit ← match environment.serverLimit with
    | none => .ok Settings.standard.serverLimit
    | some value => (some ∘ UInt64.ofNat) <$> readSetting serversVariable UInt64.size value
  let settings := { workersPerServer, serverLimit : Settings }
  settings.check
  return settings

end Environment

end StagedQuery
