import StagedQuery.Settings.Environment
import StagedQuery.Dispatch.Planner
import StagedQuery.Format.Dispatch
import StagedQuery.Json.Parser

/-!
# Request files

A file holds either a plan, or a request to make one: a query, the cluster to
run it on, and perhaps settings, which are otherwise taken from the environment
(`StagedQuery.planOfFile`).
-/

namespace StagedQuery

open Json

/-- A request for a plan. -/
structure Request where
  /-- The query, with exchanges where it is to be cut. -/
  query : PlanTree
  /-- The machines to run it on. -/
  cluster : Cluster
  /-- The settings, if the request brings any. -/
  settings : Option Settings

namespace Request

/-- Reads a request. -/
def ofJson? : Reader Request :=
  withRecord? ["plan", "cluster", "config"] 3 fun room fields => do
    let [some query, some cluster, settings] := fields | none
    return ⟨← PlanTree.ofJson? room query, ← Cluster.ofJson? room cluster,
      ← optionalField? (Settings.ofJson? room) settings⟩

/-- Reads a request from text. -/
def ofText? (text : String) : Option Request := (parse text).bind (ofJson? textRoom)

/-- The plan that answers a request. -/
def answer (request : Request) (environment : Environment) :
    Except PlanError DispatchPlan := do
  let settings ← match request.settings with
    | some settings => .ok settings
    | none => environment.settings
  let planner ← Planner.ofSettings settings
  planner.plan request.query request.cluster

end Request

/-- **The plan that a file holds or asks for.** The file is given by its path and
by what reading it yields; `dispatchable` says that it holds a plan. -/
def planOfFile (path : String) (content : Except FileFault String) (dispatchable : Bool)
    (environment : Environment) : Except PlanError DispatchPlan :=
  match content with
  | .error fault => .error (.file fault)
  | .ok text =>
    if dispatchable then
      match DispatchPlan.ofText text with
      | .ok plan => .ok plan
      | .error .malformed => .error (.undecodable path)
      | .error (.refused error) => .error (.rejected path error)
    else
      match Request.ofText? text with
      | none => .error (.undecodable path)
      | some request => request.answer environment

end StagedQuery
