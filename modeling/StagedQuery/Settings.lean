import StagedQuery.Error

/-!
# Settings

How many workers the planner puts on each server for a stage that may run
anywhere, and how many servers it uses for one. Both numbers must be at least
one (`StagedQuery.Settings.check`).
-/

namespace StagedQuery

/-- The settings of a planner. -/
structure Settings where
  /-- Workers on each server for a stage that scans no table. -/
  workersPerServer : UInt32 := 1
  /-- The most servers such a stage uses; all of them if unset. -/
  serverLimit : Option UInt64 := none
  deriving DecidableEq, Repr

namespace Settings

/-- The settings where nothing is set: one worker on every server. -/
def standard : Settings := {}

instance : Inhabited Settings := ⟨standard⟩

/-- Accepts settings under which every stage gets a worker. -/
def check (settings : Settings) : Except PlanError Unit :=
  if settings.workersPerServer = 0 then .error (.settings .noWorkersPerServer)
  else if settings.serverLimit = some 0 then .error (.settings .noServersAllowed)
  else .ok ()

end Settings

end StagedQuery
