import StagedQuery.Mailbox
import StagedQuery.Stage

/-!
# Wiring the mailboxes

A border between two stages joins every worker of the sender with every worker
of the receiver. `StagedQuery.wireMailboxes` describes each worker of each
stage, and then goes through the borders (`StagedQuery.borders`) one by one: a
border tells the workers of its sender the mailboxes of its receiver, and the
workers of its receiver those of its sender.

Stages and assignments may come from anywhere, so a border may lead to a stage
that has no assignment, or that is not among the stages; both are refused.
-/

namespace StagedQuery

/-- What the workers of every stage know. -/
abbrev Wiring := StageMap (WorkerMap WorkerLinks)

/-- A border between stages: the sender and the receiver. -/
abbrev Border := StageId × StageId

/-- The borders at which stages send rows, stage by stage and receiver by
receiver. -/
def borders (stages : List Stage) : List Border :=
  stages.flatMap fun stage => stage.receivers.map fun receiver => (stage.id, receiver)

/-- The assignment of a stage. -/
def assignmentFor (assignments : StageMap Assignment) (stage : StageId) :
    Except PlanError Assignment :=
  match assignments[stage]? with
  | some assignment => .ok assignment
  | none => structuralError (.unassignedStage stage)

/-- The workers of an assignment before any border is wired. Of several entries
for one worker the last counts. -/
def Assignment.describe (assignment : Assignment) : WorkerMap WorkerLinks :=
  assignment.destinations.foldl (fun workers (server, worker) =>
    workers.insert worker ⟨worker, server, ∅, ∅⟩) ∅

/-- The workers of all stages before any border is wired. -/
def describeWorkers (stages : List Stage) (assignments : StageMap Assignment) :
    Except PlanError Wiring :=
  stages.foldlM (fun wiring stage => do
    return wiring.insert stage.id (← assignmentFor assignments stage.id).describe) ∅

namespace Wiring

/-- Tells the workers of a stage something. The stage must be there. -/
def tell (wiring : Wiring) (stage : StageId) (news : WorkerLinks → WorkerLinks) :
    Except PlanError Wiring :=
  if stage ∈ wiring then
    .ok (wiring.modify stage fun workers => workers.map fun _ links => news links)
  else structuralError (.unknownStage stage)

/-- Wires one border. -/
def addBorder (assignments : StageMap Assignment) (wiring : Wiring) (border : Border) :
    Except PlanError Wiring := do
  let (sender, receiver) := border
  let producers := (← assignmentFor assignments sender).mailboxes
  let consumers := (← assignmentFor assignments receiver).mailboxes
  let wiring ← wiring.tell sender fun links =>
    { links with sends := links.sends.insert receiver consumers }
  wiring.tell receiver fun links =>
    { links with receives := links.receives.insert sender producers }

end Wiring

/-- **What the workers of every stage know** of the workers they exchange rows
with. -/
def wireMailboxes (stages : List Stage) (assignments : StageMap Assignment) :
    Except PlanError Wiring := do
  (borders stages).foldlM (Wiring.addBorder assignments) (← describeWorkers stages assignments)

end StagedQuery
