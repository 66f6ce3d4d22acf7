import Mathlib.Algebra.Group.Nat.Units
import Mathlib.Algebra.Group.Units.Basic
import StagedQuery.Proofs.Assignment.Segments
import StagedQuery.Proofs.Dispatch.Built
import StagedQuery.Proofs.Explain.Complete

/-!
# How many workers take what goes to one consumer

A border with the distribution `StagedQuery.Distribution.singleton` is meant for a stage with one
worker. Placing never looks at distributions, though: how many workers a stage has follows from
its place in the plan, the tables that it scans and the settings
(`StagedQuery.Stage.workerCount`). The first stage has one worker and so collects as it should.
Any other stage that such a border leads to has one worker only if it runs alone for reasons of
its own (`StagedQuery.Stage.RunsAlone`), and a plan keeps what the distribution promises
(`StagedQuery.StageGraph.Gathers`) exactly if that holds of each of its collecting stages
(`StagedQuery.Planner.gathers_iff`).
-/

namespace StagedQuery

/-- A list without repeats has one item exactly if one thing is in it. -/
theorem length_eq_one_iff_existsUnique {α : Type} {items : List α} (distinct : items.Nodup)
    {P : α → Prop} (hmem : ∀ a, a ∈ items ↔ P a) : items.length = 1 ↔ ∃! a, P a := by
  simp only [← hmem]
  constructor
  · intro hlength
    obtain ⟨a, rfl⟩ := List.length_eq_one_iff.mp hlength
    exact ⟨a, List.mem_singleton_self a, fun b hb => List.mem_singleton.mp hb⟩
  · rintro ⟨a, ha, hunique⟩
    refine Nat.le_antisymm ?_ (List.length_pos_of_mem ha)
    have hsub : items ⊆ [a] := fun b hb => List.mem_singleton.mpr (hunique b hb)
    exact (List.subperm_of_subset distinct hsub).length_le

/-! ### Counting the workers of a stage -/

namespace Cluster

variable {cluster : Cluster}

/-- There is one server for each instance that holds a part of one of some tables. -/
theorem length_keys_eq {tables : List String} {located : Std.ExtTreeMap Server SegmentSet}
    (hlocated : cluster.segmentsByServer tables = .ok located) :
    located.keys.length = (cluster.instances tables).length := by
  refine Nat.le_antisymm (length_keys_le hlocated) ?_
  have hsub : cluster.instances tables ⊆ located.keys.map (·.instanceId) := by
    intro instanceId hmem
    exact (mem_instanceId_keys hlocated).mpr (mem_instances.mp hmem)
  have hle := (List.subperm_of_subset (List.nodup_dedup _) hsub).length_le
  rwa [List.length_map] at hle

end Cluster

namespace Stage

variable {stage : Stage} {cluster : Cluster} {settings : Settings} {assignment : Assignment}

/-- **How many workers are placed for a stage.** The distributions of the borders that lead to it
play no part. -/
def workerCount (stage : Stage) (cluster : Cluster) (settings : Settings) : Nat :=
  if stage.id = rootStageId then 1
  else if stage.isScan then (cluster.instances stage.root.tables).length
  else (cluster.intermediateServers settings).length * settings.workersPerServer.toNat

theorem size_of_placeScan (h : stage.placeScan cluster = .ok assignment) :
    assignment.size = (cluster.instances stage.root.tables).length := by
  obtain ⟨located, hlocated, -, rfl⟩ := placeScan_eq_ok.mp h
  rw [Assignment.foldl_add_eq stage.id Std.ExtTreeMap.ordered_keys_toList, Assignment.size_eq,
    Assignment.workers_oneEach, List.length_map, List.length_range', ← Cluster.length_keys_eq
    hlocated, ← Std.ExtTreeMap.map_fst_toList_eq_keys, List.length_map]

theorem size_of_placeAnywhere (h : stage.placeAnywhere cluster settings = .ok assignment) :
    assignment.size =
      (cluster.intermediateServers settings).length * settings.workersPerServer.toNat := by
  obtain ⟨-, rfl⟩ := placeAnywhere_eq_ok.mp h
  exact (Assignment.size_foldl_addMany _ _ _).trans (Nat.zero_add _)

/-- **What is placed for a stage** has as many workers as the stage is given. -/
theorem size_of_place (h : stage.place cluster settings = .ok assignment) :
    assignment.size = stage.workerCount cluster settings := by
  rw [workerCount]
  split_ifs with hroot hscan
  · exact size_of_place_root h hroot
  · rw [place, if_neg hroot, if_pos hscan] at h
    exact size_of_placeScan h
  · rw [place, if_neg hroot, if_neg hscan] at h
    exact size_of_placeAnywhere h

/-! ### Stages with one worker -/

/-- **The stage runs alone**, whatever is sent to it. -/
inductive RunsAlone (stage : Stage) (cluster : Cluster) (settings : Settings) : Prop
  /-- It is the first stage. -/
  | first (root : stage.id = rootStageId)
  /-- It scans tables that one instance holds all by itself. -/
  | scanning (scans : ∃ table, stage.Scans table)
      (holder : ∃! instanceId, ∃ table, stage.Scans table ∧ cluster.Holds table instanceId)
  /-- It scans nothing, there is one server for it and one worker on the server. -/
  | anywhere (scansNot : ¬∃ table, stage.Scans table) (single : settings.workersPerServer = 1)
      (server : settings.serverLimit = some 1 ∨ ∃! server, server ∈ cluster.servers)

theorem length_instances_eq_one : (cluster.instances stage.root.tables).length = 1 ↔
    ∃! instanceId, ∃ table, stage.Scans table ∧ cluster.Holds table instanceId := by
  have hmem (instanceId : String) : instanceId ∈ cluster.instances stage.root.tables ↔
      ∃ table, stage.Scans table ∧ cluster.Holds table instanceId := by
    rw [Cluster.mem_instances]
    exact exists_congr fun table => and_congr_left fun _ => mem_tables
  exact length_eq_one_iff_existsUnique (List.nodup_dedup _) hmem

end Stage

/-- There is one server for a stage that may run anywhere if the settings allow no more, or the
cluster has no more. -/
theorem Cluster.length_intermediateServers_eq_one {cluster : Cluster} {settings : Settings}
    (hne : cluster.intermediateServers settings ≠ []) :
    (cluster.intermediateServers settings).length = 1 ↔
      settings.serverLimit = some 1 ∨ ∃! server, server ∈ cluster.servers := by
  rw [← length_eq_one_iff_existsUnique nodup_orderedServers fun _ => mem_orderedServers]
  have hpos := List.length_pos_iff.mpr hne
  rw [intermediateServers] at hpos ⊢
  cases hlimit : settings.serverLimit with
  | none => simp
  | some limit =>
    have hone : limit.toNat = 1 ↔ limit = 1 := by
      rw [← UInt64.toNat_inj]
      rfl
    rw [hlimit] at hpos
    simp only [List.length_take, Option.some.injEq, ← hone] at hpos ⊢
    omega

namespace Stage

variable {stage : Stage} {cluster : Cluster} {settings : Settings} {assignment : Assignment}

/-- **A stage has one worker** exactly if it runs alone. -/
theorem size_of_place_eq_one (h : stage.place cluster settings = .ok assignment) :
    assignment.size = 1 ↔ stage.RunsAlone cluster settings := by
  rw [size_of_place h, workerCount]
  split_ifs with hroot hscan
  · exact ⟨fun _ => .first hroot, fun _ => rfl⟩
  · rw [length_instances_eq_one]
    have hscans := isScan_iff.mp hscan
    refine ⟨.scanning hscans, ?_⟩
    rintro (hfirst | ⟨-, hholder⟩ | ⟨hnot, -, -⟩)
    · exact absurd hfirst hroot
    · exact hholder
    · exact absurd hscans hnot
  · have hnot := mt isScan_iff.mpr hscan
    rw [place, if_neg hroot, if_neg hscan] at h
    rw [mul_eq_one,
      Cluster.length_intermediateServers_eq_one (placeAnywhere_eq_ok.mp h).1]
    have hone : settings.workersPerServer.toNat = 1 ↔ settings.workersPerServer = 1 := by
      rw [← UInt32.toNat_inj]
      rfl
    rw [hone]
    constructor
    · rintro ⟨hserver, hsingle⟩
      exact .anywhere hnot hsingle hserver
    · rintro (hfirst | ⟨hscans, -⟩ | ⟨-, hsingle, hserver⟩)
      · exact absurd hfirst hroot
      · exact absurd hscans hnot
      · exact ⟨hserver, hsingle⟩

/-- Rows that are meant for a single consumer arrive at the stage. -/
def Collects (stage : Stage) : Prop :=
  ∃ node ∈ stage.root.nodes, ∃ receive, node.operator = .receive receive ∧
    receive.distribution = .singleton

instance (stage : Stage) : Decidable stage.Collects :=
  decidable_of_iff (∃ node ∈ stage.root.nodes, (match node.operator with
      | .receive receive => decide (receive.distribution = .singleton)
      | _ => false) = true) <| by
    refine exists_congr fun node => and_congr_right fun _ => ?_
    cases node.operator <;> simp

end Stage

/-! ### Plans -/

/-- **What goes to a single consumer finds one**: each stage that such rows arrive at has one
worker. -/
def StageGraph.Gathers (graph : StageGraph) : Prop :=
  ∀ (id : StageId) (planned : PlannedStage), graph.stages[id]? = some planned →
    planned.stage.Collects → planned.assignment.size = 1

namespace Planner

/-- **When rows for a single consumer find one.** In the plan of a query every stage has the
workers that it is given for its place in the plan, its tables and the settings. The first stage
collects the result with one worker. All other stages that collect have one worker exactly if
each of them runs alone for reasons of its own. -/
theorem gathers_iff (planner : Planner) (root : PlanTree) (cluster : Cluster) (plan : DispatchPlan)
    (h : planner.plan root cluster = .ok plan) :
    (∀ (id : StageId) (planned : PlannedStage), plan.stages[id]? = some planned →
      planned.assignment.size = planned.stage.workerCount cluster planner.settings) ∧
    (∃ planned : PlannedStage, plan.stages[rootStageId]? = some planned ∧ planned.stage.Collects ∧
      planned.assignment.size = 1) ∧
    (plan.Gathers ↔ ∀ (id : StageId) (planned : PlannedStage), plan.stages[id]? = some planned →
      planned.stage.Collects → planned.stage.RunsAlone cluster planner.settings) := by
  obtain ⟨joined, hbuilt, hgraph, -⟩ := exists_built h
  have hplaced {id : StageId} {planned : PlannedStage}
      (hplanned : plan.stages[id]? = some planned) :
      planned.stage.place cluster planner.settings = .ok planned.assignment := by
    rw [hgraph, hbuilt.getElem?_eq_some] at hplanned
    exact hbuilt.placed planned hplanned.1
  refine ⟨fun id planned hplanned => Stage.size_of_place (hplaced hplanned), ?_, ?_⟩
  · have harrival : root.arrival ∈ root.fragments := List.mem_cons_self
    obtain ⟨planned, hplanned, hstage⟩ := hbuilt.exists_planned harrival
    rw [← hgraph] at hplanned
    refine ⟨planned, hplanned, ?_,
      Stage.size_of_place_root (hplaced hplanned) (congrArg Stage.id hstage)⟩
    rw [hstage]
    exact ⟨_, PlanTree.self_mem_nodes _, _, rfl, rfl⟩
  · refine forall_congr' fun id => forall_congr' fun planned => forall_congr' fun hplanned =>
      forall_congr' fun _ => Stage.size_of_place_eq_one (hplaced hplanned)

/-- A query that filters rows which are to be collected in one place. -/
def gatheredScan : PlanTree := .filter "x > 1" (.exchange .singleton [] (.tableScan "t" ["x"]))

/-- On one server the rows are collected by one worker, and so each stage that collects runs
alone. -/
theorem gathers_iff_oneServer : ∃ (planner : Planner) (plan : DispatchPlan),
    planner.plan gatheredScan oneServer = .ok plan ∧ plan.stages.size = 3 ∧ plan.Gathers ∧
      ∀ (id : StageId) (planned : PlannedStage), plan.stages[id]? = some planned →
        planned.stage.Collects → planned.stage.RunsAlone oneServer planner.settings := by
  let planner : Planner := ⟨.standard, rfl⟩
  have hsome : ((planner.plan gatheredScan oneServer).toOption.any fun plan =>
      decide (plan.stages.size = 3 ∧ ∀ entry ∈ plan.stages.toList, entry.2.stage.Collects →
        entry.2.assignment.size = 1)) = true := by decide +kernel
  obtain ⟨plan, hplan, hdecided⟩ := (Option.any_eq_true _ _).mp hsome
  obtain ⟨hsize, hall⟩ := of_decide_eq_true hdecided
  have hgathers : plan.Gathers := fun id planned hplanned =>
    hall (id, planned) (Std.ExtTreeMap.mem_toList_iff_getElem?_eq_some.mpr hplanned)
  have hplan := toOption_eq_some.mp hplan
  exact ⟨planner, plan, hplan, hsize, hgathers,
    (gathers_iff planner gatheredScan oneServer plan hplan).2.2.mp hgathers⟩

/-- **On two servers they are not**: the stage that filters has a worker on each. -/
theorem gatheredScan_scattered : ∃ (planner : Planner) (plan : DispatchPlan)
    (planned : PlannedStage), planner.plan gatheredScan twoServers = .ok plan ∧
      plan.stages[(Id.ofNat 1 : StageId)]? = some planned ∧ planned.stage.Collects ∧
      planned.assignment.size = 2 ∧ ¬plan.Gathers := by
  let planner : Planner := ⟨.standard, rfl⟩
  have hsome : ((planner.plan gatheredScan twoServers).toOption.any fun plan =>
      plan.stages[(Id.ofNat 1 : StageId)]?.any fun planned =>
        decide (planned.stage.Collects ∧ planned.assignment.size = 2)) = true := by
    decide +kernel
  obtain ⟨plan, hplan, hfound⟩ := (Option.any_eq_true _ _).mp hsome
  obtain ⟨planned, hplanned, hboth⟩ := (Option.any_eq_true _ _).mp hfound
  obtain ⟨hcollects, hsize⟩ := of_decide_eq_true hboth
  refine ⟨planner, plan, planned, toOption_eq_some.mp hplan, hplanned, hcollects, hsize, ?_⟩
  intro hgathers
  have hone := hgathers _ planned hplanned hcollects
  omega

end Planner

end StagedQuery
