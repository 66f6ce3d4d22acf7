import StagedQuery.Proofs.Dispatch.Joining
import StagedQuery.Proofs.Dispatch.Planner

/-!
# A plan and its components

A plan can be taken apart into its stages, the assignments of the stages and what their workers
know (`StagedQuery.StageGraph.assignments`, `StagedQuery.StageGraph.wiring`), and it can be joined
from such components. What is joined is said here without a word about how: the graph **joins** the
components if it files every stage under its id, with what the two maps hold under this id, and
nothing else (`StagedQuery.StageGraph.Joins`). There is at most one such graph
(`StagedQuery.StageGraph.Joins.unique`).

**Joining is exact** (`StagedQuery.DispatchPlan.assemble_exact`). It gives this graph, and it gives
it whenever it can be a plan and the components match: no two stages share an id, and both maps are
keyed by the ids of the stages. Nothing of this depends on the order of the stages. A plan whose
root is the first stage joins its own components, so taking it apart and joining it again gives it
back.
-/

namespace StagedQuery

namespace StageGraph

/-! ### The graph that components make -/

/-- The assignments of the stages. -/
def assignments (graph : StageGraph) : StageMap Assignment :=
  graph.stages.map fun _ planned => planned.assignment

/-- What the workers of the stages know. -/
def wiring (graph : StageGraph) : Wiring := graph.stages.map fun _ planned => planned.workers

/-- **A graph joins some stages** with what two maps hold for them. -/
structure Joins (graph : StageGraph) (stages : List Stage) (assignments : StageMap Assignment)
    (wiring : Wiring) : Prop where
  /-- Its root is the first stage of a query. -/
  root : graph.root = rootStageId
  /-- What is filed under an id is the stage with the id, with its assignment and its workers. -/
  filed : ∀ (id : StageId) (planned : PlannedStage), graph.stages[id]? = some planned ↔
    planned.stage ∈ stages ∧ planned.stage.id = id ∧
      assignments[id]? = some planned.assignment ∧ wiring[id]? = some planned.workers

variable {graph : StageGraph} {stages : List Stage} {assignments : StageMap Assignment}
  {wiring : Wiring}

/-- There is no other graph that joins the same. -/
theorem Joins.unique {other : StageGraph} (h : graph.Joins stages assignments wiring)
    (hother : other.Joins stages assignments wiring) : graph = other := by
  obtain ⟨root, filed⟩ := graph
  obtain ⟨otherRoot, otherFiled⟩ := other
  obtain rfl : root = rootStageId := h.root
  obtain rfl : otherRoot = rootStageId := hother.root
  refine congrArg (StageGraph.mk rootStageId) (Std.ExtTreeMap.ext_getElem? fun id => ?_)
  refine Option.ext fun planned => ?_
  exact (h.filed id planned).trans (hother.filed id planned).symm

/-- The order of the stages plays no part. -/
theorem Joins.perm {others : List Stage} (hperm : stages.Perm others)
    (h : graph.Joins stages assignments wiring) : graph.Joins others assignments wiring := by
  refine ⟨h.root, fun id planned => (h.filed id planned).trans ?_⟩
  rw [hperm.mem_iff]

/-- **Stages that are joined one by one** make the graph that joins them. -/
theorem joins_ofJoined {joined : List PlannedStage} (distinct : (stages.map (·.id)).Nodup)
    (h : Joined assignments wiring stages joined) :
    (ofJoined joined).Joins stages assignments wiring := by
  refine ⟨rfl, fun id planned => ?_⟩
  rw [getElem?_ofJoined (h.map_id ▸ distinct)]
  constructor
  · rintro ⟨hplanned, rfl⟩
    exact ⟨h.stage_mem hplanned, rfl, h.assignments planned hplanned, h.workers planned hplanned⟩
  · rintro ⟨hstage, rfl, hassignment, hworkers⟩
    obtain ⟨found, hfound, hsame⟩ := h.exists_planned hstage
    have hassigned := h.assignments found hfound
    have hwired := h.workers found hfound
    rw [hsame] at hassigned hwired
    -- the two maps leave no choice of what the stage is joined with
    have heq : found = planned := by
      obtain ⟨stage, assignment, workers⟩ := planned
      obtain rfl := Option.some.inj (hassigned.symm.trans hassignment)
      obtain rfl := Option.some.inj (hwired.symm.trans hworkers)
      obtain rfl : found.stage = stage := hsame
      rfl
    exact ⟨heq ▸ hfound, rfl⟩

/-! ### The components of a graph -/

variable (filed : ∀ (id : StageId) (planned : PlannedStage),
  graph.stages[id]? = some planned → planned.stage.id = id)

include filed

/-- Where every stage is filed under its own id, the ids of the stages are the keys. -/
theorem map_id_stageList : (graph.stageList.map (·.stage)).map (·.id) = graph.stages.keys := by
  rw [stageList, List.map_map, List.map_map, ← Std.ExtTreeMap.map_fst_toList_eq_keys]
  refine List.map_congr_left fun entry hentry => ?_
  exact filed entry.1 entry.2 (Std.ExtTreeMap.mem_toList_iff_getElem?_eq_some.mp hentry)

/-- **A graph joins its own components**, if its root is the first stage of a query. -/
theorem joins_components (hroot : graph.root = rootStageId) :
    graph.Joins (graph.stageList.map (·.stage)) graph.assignments graph.wiring := by
  refine ⟨hroot, fun id planned => ?_⟩
  rw [StageGraph.assignments, StageGraph.wiring, Std.ExtTreeMap.getElem?_map,
    Std.ExtTreeMap.getElem?_map]
  constructor
  · intro hplanned
    rw [hplanned]
    exact ⟨List.mem_map_of_mem (mem_stageList.mpr ⟨id, hplanned⟩), filed id planned hplanned,
      rfl, rfl⟩
  · rintro ⟨hstage, rfl, hassignment, hworkers⟩
    obtain ⟨other, hother, hsame⟩ := List.mem_map.mp hstage
    obtain ⟨key, hkey⟩ := mem_stageList.mp hother
    obtain rfl : other.stage.id = key := filed key other hkey
    rw [hsame] at hkey
    rw [hkey] at hassignment hworkers ⊢
    -- all three parts of what is filed are those of the planned stage
    obtain ⟨stage, assignment, workers⟩ := planned
    obtain rfl : other.stage = stage := hsame
    obtain rfl : other.assignment = assignment := Option.some.inj hassignment
    obtain rfl : other.workers = workers := Option.some.inj hworkers
    rfl

end StageGraph

namespace DispatchPlan

variable {stages : List Stage} {assignments : StageMap Assignment} {wiring : Wiring}
  {plan : DispatchPlan}

/-- Stages are filed under their own ids in every plan. -/
theorem filed (plan : DispatchPlan) : ∀ (id : StageId) (planned : PlannedStage),
    plan.stages[id]? = some planned → planned.stage.id = id := by
  intro id planned hplanned
  exact ((plan.wellFormed_of_stage hplanned).stages id planned hplanned).filed

/-- **Components match.** -/
structure Match (stages : List Stage) (assignments : StageMap Assignment) (wiring : Wiring) :
    Prop where
  /-- No two stages share an id. -/
  distinct : (stages.map (·.id)).Nodup
  /-- There is an assignment for every stage, and no other. -/
  assigned : ∀ id, id ∈ assignments ↔ id ∈ stages.map (·.id)
  /-- The workers of every stage are described, and no others. -/
  wired : ∀ id, id ∈ wiring ↔ id ∈ stages.map (·.id)

theorem Match.perm {others : List Stage} (hperm : stages.Perm others)
    (h : Match stages assignments wiring) : Match others assignments wiring := by
  have hids := hperm.map (·.id)
  refine ⟨hids.nodup_iff.mp h.distinct, fun id => (h.assigned id).trans hids.mem_iff,
    fun id => (h.wired id).trans hids.mem_iff⟩

/-- **What is joined** is the graph that joins matching components. -/
theorem assemble_eq_ok_iff : assemble stages assignments wiring = .ok plan ↔
    Match stages assignments wiring ∧ plan.Joins stages assignments wiring := by
  rw [assemble_eq_ok]
  constructor
  · rintro ⟨hdistinct, hassignments, hwiring, joined, hjoined, hgraph⟩
    refine ⟨⟨hdistinct, fun id => ⟨hassignments id, fun hid => ?_⟩,
      fun id => ⟨hwiring id, fun hid => ?_⟩⟩, ?_⟩
    · rw [← hjoined.map_id] at hid
      obtain ⟨planned, hplanned, rfl⟩ := List.mem_map.mp hid
      exact mem_iff_exists_entry.mpr ⟨_, hjoined.assignments planned hplanned⟩
    · rw [← hjoined.map_id] at hid
      obtain ⟨planned, hplanned, rfl⟩ := List.mem_map.mp hid
      exact mem_iff_exists_entry.mpr ⟨_, hjoined.workers planned hplanned⟩
    · rw [ofGraph_eq_ok.mp hgraph]
      exact StageGraph.joins_ofJoined hdistinct hjoined
  · rintro ⟨⟨hdistinct, hassigned, hwired⟩, hjoins⟩
    have hid {stage : Stage} (hstage : stage ∈ stages) : stage.id ∈ stages.map (·.id) :=
      List.mem_map_of_mem hstage
    obtain ⟨joined, hjoined⟩ := Joined.exists_of_mem
      (fun stage hstage => (hassigned stage.id).mpr (hid hstage))
      fun stage hstage => (hwired stage.id).mpr (hid hstage)
    refine ⟨hdistinct, fun id => (hassigned id).mp, fun id => (hwired id).mp, joined, hjoined, ?_⟩
    exact ofGraph_eq_ok.mpr (hjoins.unique (StageGraph.joins_ofJoined hdistinct hjoined))

/-- The components of a plan match. -/
theorem match_components (plan : DispatchPlan) :
    Match (plan.stageList.map (·.stage)) plan.assignments plan.wiring := by
  have hids := StageGraph.map_id_stageList plan.filed
  refine ⟨hids ▸ Std.ExtTreeMap.nodup_keys, fun id => ?_, fun id => ?_⟩
  · rw [hids, StageGraph.assignments, Std.ExtTreeMap.mem_map, Std.ExtTreeMap.mem_keys]
  · rw [hids, StageGraph.wiring, Std.ExtTreeMap.mem_map, Std.ExtTreeMap.mem_keys]

/-- **Joining components is exact.** It succeeds exactly if the components match and the graph that
joins them can be a plan, and then this graph is the plan. The order of the stages does not matter,
and a plan whose root is the first stage is given back by its components. -/
theorem assemble_exact (stages : List Stage) (assignments : StageMap Assignment)
    (wiring : Wiring) :
    ((∃ plan, assemble stages assignments wiring = .ok plan) ↔
      Match stages assignments wiring ∧
        ∃ graph : StageGraph, graph.Joins stages assignments wiring ∧
          ∃ plan, ofGraph graph = .ok plan) ∧
    (∀ plan, assemble stages assignments wiring = .ok plan →
      plan.Joins stages assignments wiring ∧ ofGraph plan.toStageGraph = .ok plan) ∧
    (∀ plan others, stages.Perm others → assemble stages assignments wiring = .ok plan →
      assemble others assignments wiring = .ok plan) ∧
    ∀ plan : DispatchPlan, plan.root = rootStageId →
      ∀ others, others.Perm (plan.stageList.map (·.stage)) →
        assemble others plan.assignments plan.wiring = .ok plan := by
  simp only [assemble_eq_ok_iff]
  refine ⟨⟨?_, ?_⟩, fun plan h => ⟨h.2, ofGraph_eq_ok.mpr rfl⟩,
    fun plan others hperm h => ⟨h.1.perm hperm, h.2.perm hperm⟩, fun plan hroot others hperm => ?_⟩
  · rintro ⟨plan, hmatch, hjoins⟩
    exact ⟨hmatch, plan.toStageGraph, hjoins, plan, ofGraph_eq_ok.mpr rfl⟩
  · rintro ⟨hmatch, graph, hjoins, plan, hplan⟩
    obtain rfl := ofGraph_eq_ok.mp hplan
    exact ⟨plan, hmatch, hjoins⟩
  · exact ⟨plan.match_components.perm hperm.symm,
      (StageGraph.joins_components plan.filed hroot).perm hperm.symm⟩

/-- The plan of a query with a scan has three stages, and is given back by its components with the
stages in reverse. -/
theorem assemble_exact_reversed : ∃ plan : DispatchPlan, plan.stages.size = 3 ∧
    assemble (plan.stageList.map (·.stage)).reverse plan.assignments plan.wiring = .ok plan := by
  let planner : Planner := ⟨.standard, rfl⟩
  have hsome : ((planner.plan Planner.filteredScan Planner.oneServer).toOption.any fun plan =>
      plan.stages.size == 3 && plan.root == rootStageId) = true := by decide +kernel
  obtain ⟨plan, -, hplan⟩ := (Option.any_eq_true _ _).mp hsome
  obtain ⟨hsize, hroot⟩ := Bool.and_eq_true_iff.mp hplan
  refine ⟨plan, eq_of_beq hsize, ?_⟩
  exact (assemble_exact [] ∅ ∅).2.2.2 plan (eq_of_beq hroot) _ (List.reverse_perm _)

end DispatchPlan

end StagedQuery
