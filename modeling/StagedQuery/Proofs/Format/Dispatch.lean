import StagedQuery.Proofs.Dispatch.WellFormed
import StagedQuery.Proofs.Format.Cluster
import StagedQuery.Proofs.Format.Plan

/-!
# Assignments, mailboxes and dispatch plans as JSON

The last layer of the data format: what is written for assignments, for what workers know, and
for the stages and the graph of a plan stands for it. With that, reading undoes writing for every
type of data there is a format for (`StagedQuery.reading_undoes_writing`).

For a whole plan, reading also runs the check that every plan has passed. It cannot refuse what
was written for one: the graph that is read is the graph of the plan, and the check looks at
nothing else (`StagedQuery.DispatchPlan.ofText_toText`).
-/

namespace StagedQuery

open Json

/-! ### Assignments -/

theorem Hosting.standsFor (hosting : Hosting) : StandsFor ofJson? hosting.toJson hosting := by
  have hserver := hosting.server.standsFor
  have hworkers := standsFor_ofIds hosting.workers
  refine .record (by decide) rfl ?_ fun room b => ?_
  · simp [hserver.written, hworkers.written]
  · simp [hserver.read_iff, hworkers.read_iff, Option.bind_eq_some_iff, and_assoc]

theorem Assignment.standsFor (assignment : Assignment) :
    StandsFor ofJson? assignment.toJson assignment := by
  have hservers : StandsFor (list? Hosting.ofJson?) (ofList Hosting.toJson assignment.servers)
      assignment.servers := .list Hosting.standsFor
  have hsegments : StandsFor (idMap? textSet?) (segmentsToJson assignment.segments)
      assignment.segments := .idMap standsFor_ofTextSet
  refine .record (by decide) rfl ?_ fun room b => ?_
  · simp [written_ofId, hservers.written, hsegments.written]
  · simp [hservers.read_iff, hsegments.read_iff, fieldOr?, Option.bind_eq_some_iff, and_assoc]

/-! ### Mailboxes -/

theorem Mailbox.standsFor (mailbox : Mailbox) : StandsFor ofJson? mailbox.toJson mailbox := by
  refine .record (by decide) rfl ?_ fun room b => ?_
  · simp [Written.nat, Written.string, written_ofId]
  · simp

theorem WorkerLinks.standsFor (links : WorkerLinks) :
    StandsFor ofJson? links.toJson links := by
  have hserver := links.server.standsFor
  have hmailboxes (mailboxes : StageMap (List Mailbox)) :
      StandsFor (idMap? (list? Mailbox.ofJson?)) (ofIdMap (ofList Mailbox.toJson) mailboxes)
        mailboxes := .idMap fun _ => .list Mailbox.standsFor
  have hsends := hmailboxes links.sends
  have hreceives := hmailboxes links.receives
  refine .record (by decide) rfl ?_ fun room b => ?_
  · simp [written_ofId, hserver.written, hsends.written, hreceives.written]
  · simp [hserver.read_iff, hsends.read_iff, hreceives.read_iff, fieldOr?,
      Option.bind_eq_some_iff, and_assoc]

/-! ### Plans -/

theorem PlannedStage.standsFor (planned : PlannedStage) :
    StandsFor ofJson? planned.toJson planned := by
  have hstage := planned.stage.standsFor
  have hassignment := planned.assignment.standsFor
  have hworkers : StandsFor workersOfJson? (workersToJson planned.workers) planned.workers :=
    .idMap WorkerLinks.standsFor
  refine .record (by decide) rfl ?_ fun room b => ?_
  · simp [hstage.written, hassignment.written, hworkers.written]
  · simp [hstage.read_iff, hassignment.read_iff, hworkers.read_iff, Option.bind_eq_some_iff,
      and_assoc]

theorem StageGraph.standsFor (graph : StageGraph) : StandsFor ofJson? graph.toJson graph := by
  have hstages : StandsFor (idMap? PlannedStage.ofJson?) (ofIdMap PlannedStage.toJson graph.stages)
      graph.stages := .idMap PlannedStage.standsFor
  refine .record (by decide) rfl ?_ fun room b => ?_
  · simp [written_ofId, hstages.written]
  · simp [hstages.read_iff, Option.bind_eq_some_iff]

/-- **The text of a plan is read as the plan**, if it does not nest too deeply; otherwise it is
refused, and not for what the plan is. -/
theorem DispatchPlan.ofText_toText (plan : DispatchPlan) : ofText plan.toText =
    if plan.toJson.levels ≤ textRoom then .ok plan else .error .malformed := by
  have hplan := plan.toStageGraph.standsFor
  have hgraph : ofGraph plan.toStageGraph = .ok plan := ofGraph_eq_ok.mpr rfl
  simp only [toText, ofText, parsePart_render hplan.written, hplan.read_eq]
  by_cases hroom : plan.toJson.levels ≤ textRoom
  · simp only [if_pos hroom, hgraph]
    exact if_pos rfl
  · simp only [if_neg hroom]

/-! ### Reading undoes writing -/

/-- What is written is read again, by a reader of its type, exactly if its text does not nest too
deeply. -/
def ReadsBack {α : Type} (read : Reader α) (write : α → Json) : Prop :=
  ∀ a, readText? read (write a).render = if (write a).levels ≤ textRoom then some a else none

/-- **Reading undoes writing** for all data that has a format: plan trees, stages, clusters,
settings, assignments, what workers know, planned stages, and plans with the check that reading
them runs. The levels of brackets are the only limit. -/
theorem reading_undoes_writing :
    ReadsBack PlanTree.ofJson? PlanTree.toJson ∧ ReadsBack Stage.ofJson? Stage.toJson ∧
    ReadsBack Cluster.ofJson? Cluster.toJson ∧ ReadsBack Settings.ofJson? Settings.toJson ∧
    ReadsBack Assignment.ofJson? Assignment.toJson ∧
    ReadsBack WorkerLinks.ofJson? WorkerLinks.toJson ∧
    ReadsBack PlannedStage.ofJson? PlannedStage.toJson ∧
    ∀ plan : DispatchPlan, DispatchPlan.ofText plan.toText =
      if plan.toJson.levels ≤ textRoom then .ok plan else .error .malformed :=
  ⟨fun tree => tree.standsFor.readText?_render, fun stage => stage.standsFor.readText?_render,
    fun cluster => cluster.standsFor.readText?_render,
    fun settings => settings.standsFor.readText?_render,
    fun assignment => assignment.standsFor.readText?_render,
    fun links => links.standsFor.readText?_render,
    fun planned => planned.standsFor.readText?_render, DispatchPlan.ofText_toText⟩

end StagedQuery
