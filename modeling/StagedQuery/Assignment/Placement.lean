import StagedQuery.Assignment
import StagedQuery.Cluster
import StagedQuery.Settings
import StagedQuery.Stage

/-!
# Placing the workers of stages

Where the workers of a stage run depends on what the stage does:

* the root stage has one worker, on the broker;
* a stage that scans tables has one worker on each server that holds segments of
  them, and the worker reads the segments its server holds;
* any other stage has the same number of workers on each server, or on the first
  few servers if the settings limit them.

Workers are added in the order of servers, so their ids ascend with it.
-/

namespace StagedQuery

namespace Cluster

/-- The segments that each server holds of some tables, taken together table by
table. -/
def segmentsByServer (cluster : Cluster) (tables : List String) :
    Except PlanError (Std.ExtTreeMap Server SegmentSet) :=
  tables.foldlM (fun held table => do
    let located ← cluster.holders table
    return located.foldl (fun held (server, segments) =>
      held.alter server fun set? =>
        some (segments.foldl (fun set segment => set.insert segment) (set?.getD ∅))) held) ∅

/-- The servers that run a stage which may run anywhere. -/
def intermediateServers (cluster : Cluster) (settings : Settings) : List Server :=
  match settings.serverLimit with
  | some limit => cluster.orderedServers.take limit.toNat
  | none => cluster.orderedServers

end Cluster

namespace Stage

/-- The workers of the root stage. -/
def placeRoot (stage : Stage) (cluster : Cluster) : Assignment :=
  ((Assignment.empty stage.id).add cluster.broker none).2

/-- The workers of a stage that scans tables. -/
def placeScan (stage : Stage) (cluster : Cluster) : Except PlanError Assignment := do
  let tables := stage.root.tables
  let held ← cluster.segmentsByServer tables
  if held.isEmpty then .error (.planning (.unplacedTables stage.id tables))
  else return held.toList.foldl (fun assignment (server, segments) =>
    (assignment.add server (some segments)).2) (.empty stage.id)

/-- The workers of a stage that may run anywhere. -/
def placeAnywhere (stage : Stage) (cluster : Cluster) (settings : Settings) :
    Except PlanError Assignment :=
  let servers := cluster.intermediateServers settings
  if servers.isEmpty then .error (.planning (.noServers stage.id))
  else .ok (servers.foldl (fun assignment server =>
    assignment.addMany server settings.workersPerServer.toNat) (.empty stage.id))

/-- **The workers of a stage.** -/
def place (stage : Stage) (cluster : Cluster) (settings : Settings) :
    Except PlanError Assignment :=
  if stage.id = rootStageId then .ok (stage.placeRoot cluster)
  else if stage.isScan then stage.placeScan cluster
  else stage.placeAnywhere cluster settings

end Stage

/-- **The workers of all stages**, under settings that make sense. -/
def placeWorkers (stages : List Stage) (cluster : Cluster) (settings : Settings) :
    Except PlanError (StageMap Assignment) := do
  settings.check
  stages.foldlM (fun assignments stage => do
    return assignments.insert stage.id (← stage.place cluster settings)) ∅

end StagedQuery
