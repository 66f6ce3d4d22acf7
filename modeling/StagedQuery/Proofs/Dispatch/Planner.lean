import StagedQuery.Dispatch.Planner
import StagedQuery.Plan.Build
import StagedQuery.Proofs.Dispatch.Planned

/-!
# Which queries can be planned

A query can be planned on a cluster exactly if it can be cut and its stages can be placed
(`StagedQuery.Planner.plan_ok_iff`). The two steps behind placing, wiring the borders and
joining the parts with the check that goes with it, cannot fail on what the steps in front
of them yield (`StagedQuery.exists_planned`), so no failure of theirs is ever seen. What is
seen is either about the cluster, or it is about a node of the query that has the wrong
number of inputs.

All of this holds as long as the ids do not run out (`StagedQuery.Planner.Fits`).
-/

namespace StagedQuery

/-- **The steps behind placing succeed**: the borders are wired, the parts are joined, and
the graph that they make is accepted. -/
theorem exists_planned {root : PlanTree} {cluster : Cluster} {settings : Settings}
    {assignments : StageMap Assignment} (fits : root.FitsIds)
    (cuttable : ∀ node ∈ root.nodes, node.Cuttable) (checked : settings.check = .ok ())
    (placed : placeWorkers root.fragments cluster settings = .ok assignments)
    (few : ∀ stage ∈ root.fragments, ∀ assignment,
      stage.place cluster settings = .ok assignment → assignment.size < 2 ^ 32) :
    ∃ wiring joined plan, Planned root assignments wiring joined ∧
      wireMailboxes root.fragments assignments = .ok wiring ∧
      DispatchPlan.assemble root.fragments assignments wiring = .ok plan ∧
      plan.toStageGraph = .ofJoined joined := by
  have hdistinct := PlanTree.nodup_id_fragments fits
  have hlookup {id : StageId} {assignment : Assignment} : assignments[id]? = some assignment ↔
      ∃ stage ∈ root.fragments, stage.id = id ∧ stage.place cluster settings = .ok assignment :=
    getElem?_placeWorkers checked placed hdistinct
  have hkeys {id : StageId} : id ∈ assignments ↔ id ∈ root.fragments.map (·.id) :=
    mem_placeWorkers checked placed hdistinct
  have hassigned : ∀ stage ∈ root.fragments, stage.id ∈ assignments := by
    intro stage hstage
    exact hkeys.mpr (List.mem_map_of_mem hstage)
  obtain ⟨wiring, hwiring, hwired⟩ :=
    wireMailboxes_ok hassigned (PlanTree.receivers_mem_fragments cuttable)
  have hwired' : ∀ stage ∈ root.fragments, stage.id ∈ wiring := by
    intro stage hstage
    exact (hwired.stages stage.id).mpr (List.mem_map_of_mem hstage)
  obtain ⟨joined, hjoined⟩ := Joined.exists_of_mem hassigned hwired'
  have hplanned : Planned root assignments wiring joined := by
    refine ⟨fits, cuttable, fun stage _ assignment hassignment => ?_,
      fun stage _ assignment hassignment => ?_, fun assignment hassignment => ?_, hwired, hjoined⟩
    · obtain ⟨other, -, hid, hplace⟩ := hlookup.mp hassignment
      obtain ⟨hown, hnumbered, hbusy⟩ := Stage.placed_of_place checked hplace
      exact ⟨hown.trans hid, hnumbered, hbusy⟩
    · obtain ⟨other, hother, -, hplace⟩ := hlookup.mp hassignment
      exact few other hother assignment hplace
    · obtain ⟨other, -, hid, hplace⟩ := hlookup.mp hassignment
      exact Stage.size_of_place_root hplace hid
  have haccepted := StageGraph.check_eq_ok_iff.mpr (.inr hplanned.wellFormed)
  refine ⟨wiring, joined, ⟨.ofJoined joined, haccepted⟩, hplanned, hwiring,
    DispatchPlan.assemble_eq_ok.mpr ⟨hdistinct, fun id hid => hkeys.mp hid,
      fun id hid => (hwired.stages id).mp hid, joined, hjoined,
      DispatchPlan.ofGraph_eq_ok.mpr rfl⟩, rfl⟩

namespace Planner

/-- **The ids do not run out** while a query is planned: there are fewer than `2 ^ 32` node
ids, and fewer than `2 ^ 32` workers in every stage. -/
structure Fits (planner : Planner) (root : PlanTree) (cluster : Cluster) : Prop where
  /-- There are enough ids for the nodes, and so for the stages. -/
  ids : root.FitsIds
  /-- There are enough ids for the workers of each stage. -/
  workers : ∀ stages, toStages root = .ok stages → ∀ stage ∈ stages, ∀ assignment,
    stage.place cluster planner.settings = .ok assignment → assignment.size < 2 ^ 32

instance (planner : Planner) (root : PlanTree) (cluster : Cluster) :
    Decidable (planner.Fits root cluster) :=
  decidable_of_iff (root.FitsIds ∧ ∀ stages ∈ (toStages root).toOption, ∀ stage ∈ stages,
      ∀ assignment ∈ (stage.place cluster planner.settings).toOption,
        assignment.size < 2 ^ 32) <| by
    simp only [Option.mem_def, toOption_eq_some]
    exact ⟨fun ⟨ids, workers⟩ => ⟨ids, workers⟩, fun ⟨ids, workers⟩ => ⟨ids, workers⟩⟩

/-- The first stage scans nothing: it is a receive. -/
theorem not_scans_of_root {root : PlanTree} (fits : root.FitsIds) {stage : Stage}
    (hstage : stage ∈ root.fragments) (hroot : stage.id = rootStageId) :
    ¬∃ table, stage.Scans table := by
  have harrival : root.arrival ∈ root.fragments := List.mem_cons_self
  obtain rfl : stage = root.arrival :=
    List.inj_on_of_nodup_map (PlanTree.nodup_id_fragments fits) hstage harrival hroot
  rintro ⟨table, node, hnode, columns, hscan⟩
  rw [PlanTree.root_arrival, PlanTree.nodes_mk, List.flatMap_nil, List.mem_singleton] at hnode
  rw [hnode] at hscan
  exact nomatch hscan

variable {planner : Planner} {root : PlanTree} {cluster : Cluster}

/-- The workers of all stages can be placed exactly if the cluster can run every stage that
scans, and has a server if some stage but the first does not scan. -/
theorem forall_place_iff (fits : root.FitsIds) :
    (∀ stage ∈ root.fragments, ∃ assignment,
        stage.place cluster planner.settings = .ok assignment) ↔
      (∀ stage ∈ root.fragments, (∃ table, stage.Scans table) → cluster.CanScan stage) ∧
        ((∃ stage ∈ root.fragments, stage.id ≠ rootStageId ∧ ¬∃ table, stage.Scans table) →
          cluster.servers ≠ []) := by
  simp only [Stage.place_ok_iff planner.checked]
  constructor
  · intro h
    refine ⟨fun stage hstage hscans => ?_, ?_⟩
    · rcases h stage hstage with hroot | ⟨-, hcan⟩ | ⟨hnot, -⟩
      · exact absurd hscans (not_scans_of_root fits hstage hroot)
      · exact hcan
      · exact absurd hscans hnot
    · rintro ⟨stage, hstage, hother, hnot⟩
      rcases h stage hstage with hroot | ⟨hscans, -⟩ | ⟨-, hservers⟩
      · exact absurd hroot hother
      · exact absurd hscans hnot
      · exact hservers
  · rintro ⟨hcan, hservers⟩ stage hstage
    by_cases hroot : stage.id = rootStageId
    · exact .inl hroot
    · by_cases hscans : ∃ table, stage.Scans table
      · exact .inr (.inl ⟨hscans, hcan stage hstage hscans⟩)
      · exact .inr (.inr ⟨hscans, hservers ⟨stage, hstage, hroot, hscans⟩⟩)

/-- Planning takes its four steps one after the other. -/
theorem plan_eq_ok {plan : DispatchPlan} : planner.plan root cluster = .ok plan ↔
    ∃ stages, toStages root = .ok stages ∧
      ∃ assignments, placeWorkers stages cluster planner.settings = .ok assignments ∧
        ∃ wiring, wireMailboxes stages assignments = .ok wiring ∧
          DispatchPlan.assemble stages assignments wiring = .ok plan := by
  rw [Planner.plan, bind_eq_ok]
  simp only [bind_eq_ok]

/-- What has been cut and placed can be wired and joined. -/
theorem exists_assemble (fits : planner.Fits root cluster) {stages : List Stage}
    {assignments : StageMap Assignment} (cut : toStages root = .ok stages)
    (placed : placeWorkers stages cluster planner.settings = .ok assignments) :
    ∃ wiring plan, wireMailboxes stages assignments = .ok wiring ∧
      DispatchPlan.assemble stages assignments wiring = .ok plan := by
  obtain ⟨cuttable, rfl⟩ := (toStages_eq_ok fits.ids).mp cut
  obtain ⟨wiring, joined, plan, -, hwiring, hplan, -⟩ :=
    exists_planned fits.ids cuttable planner.checked placed (fits.workers _ cut)
  exact ⟨wiring, plan, hwiring, hplan⟩

/-- Planning fails where cutting or placing does. -/
theorem fault_of_plan (fits : planner.Fits root cluster) {fault : PlanError}
    (h : planner.plan root cluster = .error fault) :
    fault.kind = .planning ∨ ∃ node ∈ root.nodes, node.checkInputCount = .error fault := by
  rcases bind_eq_error.mp h with hcut | ⟨stages, hcut, h⟩
  · rcases toStages_eq_error fits.ids hcut with hnode | rfl
    · exact .inr hnode
    · exact .inl rfl
  rcases bind_eq_error.mp h with hplace | ⟨assignments, hplaced, h⟩
  · exact .inl (placeWorkers_failsOnly planner.checked stages cluster fault hplace)
  -- what is left is wiring and joining, which succeed
  obtain ⟨wiring, plan, hwiring, hplan⟩ := exists_assemble fits hcut hplaced
  rw [hwiring] at h
  exact nomatch hplan.symm.trans h

/-- **Which queries can be planned.** Every node has to have the inputs that its operator
takes and be no end of a border; the cluster has to be able to run every stage that scans;
and there has to be a server if some stage but the first does not scan. Wiring and joining
succeed on whatever was cut and placed, and a failure that is not about the cluster is that
of a node of the query with the wrong number of inputs. -/
theorem plan_ok_iff (planner : Planner) (root : PlanTree) (cluster : Cluster)
    (fits : planner.Fits root cluster) :
    ((∃ plan, planner.plan root cluster = .ok plan) ↔
      (∀ node ∈ root.nodes, node.Cuttable) ∧
        ∀ stages, toStages root = .ok stages →
          (∀ stage ∈ stages, (∃ table, stage.Scans table) → cluster.CanScan stage) ∧
          ((∃ stage ∈ stages, stage.id ≠ rootStageId ∧ ¬∃ table, stage.Scans table) →
            cluster.servers ≠ [])) ∧
    (∀ stages assignments, toStages root = .ok stages →
      placeWorkers stages cluster planner.settings = .ok assignments →
      ∃ wiring plan, wireMailboxes stages assignments = .ok wiring ∧
        DispatchPlan.assemble stages assignments wiring = .ok plan) ∧
    ∀ fault, planner.plan root cluster = .error fault → fault.kind ≠ .planning →
      ∃ node ∈ root.nodes, node.checkInputCount = .error fault := by
  refine ⟨⟨?_, ?_⟩, fun stages assignments => exists_assemble fits,
    fun fault hfault hkind => (fault_of_plan fits hfault).resolve_left hkind⟩
  · rintro ⟨plan, hplan⟩
    obtain ⟨stages, hcut, assignments, hplaced, -⟩ := plan_eq_ok.mp hplan
    obtain ⟨hcuttable, rfl⟩ := (toStages_eq_ok fits.ids).mp hcut
    refine ⟨hcuttable, fun stages hstages => ?_⟩
    obtain ⟨-, rfl⟩ := (toStages_eq_ok fits.ids).mp hstages
    exact (forall_place_iff fits.ids).mp
      ((exists_placeWorkers_iff planner.checked).mp ⟨assignments, hplaced⟩)
  · rintro ⟨hcuttable, h⟩
    have hcut := (toStages_eq_ok fits.ids).mpr ⟨hcuttable, rfl⟩
    obtain ⟨assignments, hplaced⟩ := (exists_placeWorkers_iff planner.checked).mpr
      ((forall_place_iff fits.ids).mpr (h _ hcut))
    obtain ⟨wiring, plan, hwiring, hplan⟩ := exists_assemble fits hcut hplaced
    exact ⟨plan, plan_eq_ok.mpr ⟨_, hcut, assignments, hplaced, wiring, hwiring, hplan⟩⟩

/-- A cluster with one server, which holds a segment of a table. -/
def oneServer : Cluster :=
  (Cluster.ofServers (.onHost "broker" 1 2) [.onHost "host" 3 4]).place "t" "Server_host_3" ["s"]

/-- A query that is cut into a stage that filters and one that scans. -/
def filteredScan : PlanTree := .filter "x > 1" (.exchange .random [] (.tableScan "t" ["x"]))

/-- A query with a scan can be planned on the one server that holds the table, and so each of
its nodes can be cut. -/
theorem plan_ok_iff_oneServer : ∃ planner : Planner, planner.settings = .standard ∧
    planner.Fits filteredScan oneServer ∧ (∃ plan, planner.plan filteredScan oneServer = .ok plan) ∧
      ∀ node ∈ filteredScan.nodes, node.Cuttable := by
  let planner : Planner := ⟨.standard, rfl⟩
  have fits : planner.Fits filteredScan oneServer := by decide +kernel
  have hsome : (planner.plan filteredScan oneServer).toOption.isSome = true := by decide +kernel
  obtain ⟨plan, hplan⟩ := Option.isSome_iff_exists.mp hsome
  have hexists : ∃ plan, planner.plan filteredScan oneServer = .ok plan :=
    ⟨plan, toOption_eq_some.mp hplan⟩
  exact ⟨planner, rfl, fits, hexists, ((plan_ok_iff planner _ _ fits).1.mp hexists).1⟩

end Planner

end StagedQuery
