import Mathlib.Logic.Relation
import StagedQuery.Proofs.Explain.Cycles

/-!
# Where explaining gets to

Explaining a plan goes from station to station, a station being a node and the worker that
runs it (`StagedQuery.Station`). Inside a stage it goes on to the inputs of the node with the
same worker; at a receive it goes on at the root of the sending stage, with the last of that
stage's destinations (`StagedQuery.StageGraph.Leads`). The stations that are reached from the
root stage's worker in this way are all that explaining ever comes to, however many receives
it has followed on the way there (`StagedQuery.StageGraph.Reached`).

**What holds at every station**: the node is a node of the stage that it claims, and the
worker is described by that stage (`StagedQuery.StageGraph.Sits`). One step keeps this, since
the workers assigned to a stage are the workers described, and so every station that is
reached has it (`StagedQuery.StageGraph.sits_of_reached`). From a station where it holds,
explaining meets no fault, whatever bound is put on the borders that it crosses
(`StagedQuery.DispatchPlan.explain_faultless`).

A walk that has followed `n` receives so far has no more than `n` of them one below the other.
So everything that it has met is also met by the walk that may cross `n` borders, and a
statement about every bound is one about every moment of the walk.
-/

namespace StagedQuery

/-- A worker at a node. -/
structure Station where
  /-- The server that runs the worker. -/
  server : Server
  /-- The worker. -/
  worker : WorkerId
  /-- The node. -/
  node : PlanTree

theorem Settles.ne_fault {α : Type} {outcome : Except Halt α} {p : Prop}
    (h : Settles outcome p) (fault : PlanError) : outcome ≠ .error (.fault fault) := by
  rcases h with ⟨-, a, rfl⟩ | ⟨-, rfl⟩ <;> nofun

/-- The station at the root of a stage for one of its destinations. -/
def PlannedStage.rootStation (planned : PlannedStage) (destination : Server × WorkerId) :
    Station :=
  ⟨destination.1, destination.2, planned.stage.root⟩

namespace StageGraph

variable {graph : StageGraph}

/-- **Explaining goes on from one station to another.** -/
inductive Leads (graph : StageGraph) : Station → Station → Prop where
  /-- The same worker goes on to an input. -/
  | input {server : Server} {worker : WorkerId} {node input : PlanTree}
      (hinput : input ∈ node.inputs) : Leads graph ⟨server, worker, node⟩ ⟨server, worker, input⟩
  /-- A receive is followed into the stage that it names, by the last of its destinations. -/
  | sender {station : Station} {receive : Receive} {planned : PlannedStage}
      {destination : Server × WorkerId} (hreceive : station.node.operator = .receive receive)
      (hplanned : graph.stages[receive.sender]? = some planned)
      (hlast : planned.assignment.destinations.getLast? = some destination) :
      Leads graph station (planned.rootStation destination)

/-- Explaining a whole graph begins at the station. -/
def Begins (graph : StageGraph) (station : Station) : Prop :=
  ∃ planned destination, graph.stages[graph.root]? = some planned ∧
    planned.assignment.destinations.head? = some destination ∧
    station = planned.rootStation destination

/-- **Explaining a whole graph comes to the station**, after any number of steps. -/
def Reached (graph : StageGraph) (station : Station) : Prop :=
  ∃ start, graph.Begins start ∧ Relation.ReflTransGen graph.Leads start station

/-- The node of a station is a node of the stage that it claims, and its worker is described
by that stage. -/
def Sits (graph : StageGraph) (station : Station) : Prop :=
  ∃ planned, graph.stages[station.node.stage]? = some planned ∧
    station.node ∈ planned.stage.root.nodes ∧ station.worker ∈ planned.workers

/-- The root of a sound stage is a node of it, and its destinations are described. -/
theorem StageSound.sits {id : StageId} {planned : PlannedStage}
    (sound : graph.StageSound id planned) (hplanned : graph.stages[id]? = some planned)
    {destination : Server × WorkerId} (h : destination ∈ planned.assignment.destinations) :
    graph.Sits (planned.rootStation destination) := by
  have hroot := planned.stage.root.self_mem_nodes
  refine ⟨planned, ?_, hroot, sound.mem_workers h⟩
  rw [PlannedStage.rootStation, (sound.nodes _ hroot).held]
  exact hplanned

/-- **One step** from a station to the next. -/
theorem Sits.leads (h : graph.WellFormed) {station next : Station} (hsits : graph.Sits station)
    (hstep : graph.Leads station next) : graph.Sits next := by
  cases hstep with
  | @input server worker node input hinput =>
    obtain ⟨planned, hplanned, hnode, hworker⟩ := hsits
    have hmem : input ∈ planned.stage.root.nodes :=
      PlanTree.input_mem_nodes hnode hinput
    have hheld := ((h.stages _ _ hplanned).nodes input hmem).held
    exact ⟨planned, by rw [hheld]; exact hplanned, hmem, hworker⟩
  | sender _ hplanned hlast =>
    exact (h.stages _ _ hplanned).sits hplanned (List.mem_of_getLast? hlast)

/-- **Every station that is reached** is a node of its stage with a worker of that stage. -/
theorem sits_of_reached (h : graph.WellFormed) {station : Station}
    (hreached : graph.Reached station) : graph.Sits station := by
  obtain ⟨start, ⟨planned, destination, hplanned, hfirst, rfl⟩, hsteps⟩ := hreached
  induction hsteps with
  | refl => exact (h.stages _ _ hplanned).sits hplanned (List.mem_of_head? hfirst)
  | tail _ hstep ih => exact ih.leads h hstep

end StageGraph

namespace DispatchPlan

/-- Explains a plan, crossing at most so many borders one below the other. -/
def explainWithin (plan : DispatchPlan) (borders : Nat) : Except Halt String :=
  if plan.isEmpty then .ok emptyText else (plan.outlineRoot borders).map Outline.text

theorem explain_eq_explainWithin (plan : DispatchPlan) :
    plan.explain = plan.explainWithin plan.depthBound := rfl

/-- **Explaining a plan meets no fault**: not as a whole, nor up to any number of borders, nor
from any station that it comes to. -/
theorem explain_faultless (plan : DispatchPlan) :
    (∀ fault, plan.explain ≠ .error (.fault fault)) ∧
      (∀ borders fault, plan.explainWithin borders ≠ .error (.fault fault)) ∧
      ∀ station, plan.Reached station → ∀ borders fault,
        plan.outline borders station.server station.worker station.node ≠
          .error (.fault fault) := by
  have hwithin (borders : Nat) (fault : PlanError) :
      plan.explainWithin borders ≠ .error (.fault fault) := by
    rw [explainWithin]
    split_ifs with hempty
    · nofun
    · have hwf := plan.wellFormed.resolve_left (mt StageGraph.isEmpty_eq_true.mpr hempty)
      rw [ne_eq, map_eq_error]
      exact (StageGraph.outlineRoot_settles hwf borders).ne_fault fault
  refine ⟨fun fault => plan.explain_eq_explainWithin ▸ hwithin plan.depthBound fault, hwithin,
    fun station hreached borders fault => ?_⟩
  have hwf : plan.WellFormed := by
    obtain ⟨start, ⟨planned, destination, hplanned, -⟩, -⟩ := hreached
    exact plan.wellFormed_of_stage hplanned
  obtain ⟨planned, hplanned, hnode, hworker⟩ := StageGraph.sits_of_reached hwf hreached
  exact (StageGraph.outline_settles hwf.stages borders hplanned station.server hworker
    hnode).ne_fault fault

/-- In the circle, a station behind two receives, from which the walk goes round for ever,
meets no fault. -/
theorem explain_faultless_circle :
    ∃ plan station, ofGraph .circle = .ok plan ∧ plan.Reached station ∧
      station.node.stage = Id.ofNat 2 ∧
      ∀ borders fault, plan.outline borders station.server station.worker station.node ≠
        .error (.fault fault) := by
  let plan : DispatchPlan := ⟨.circle, StageGraph.check_circle⟩
  have hsecond : plan.Reached _ := ⟨_, ⟨_, _, rfl, rfl, rfl⟩,
    .tail (.tail (.single (.sender rfl rfl rfl)) (.input List.mem_cons_self)) (.sender rfl rfl rfl)⟩
  exact ⟨plan, _, ofGraph_eq_ok.mpr rfl, hsecond, rfl, (explain_faultless plan).2.2 _ hsecond⟩

end DispatchPlan

end StagedQuery
