import StagedQuery.Dispatch.Plan
import StagedQuery.Proofs.Keyed
import StagedQuery.Proofs.Outcome

/-!
# Joining stages, assignments and mailboxes

Joining takes the assignment and the workers of each stage out of two maps, and fails if
one of them is not there or if something is left over. So it succeeds exactly if no id
occurs twice among the stages and both maps are keyed by the ids of the stages
(`StagedQuery.DispatchPlan.assemble_eq_ok`): a second stage with the id of an earlier one
finds nothing in the maps. What is joined is the graph of the stages, each with what the
maps hold for it.
-/

namespace StagedQuery

/-- **Stages with what two maps hold for them.** -/
structure Joined (assignments : StageMap Assignment) (wiring : Wiring) (stages : List Stage)
    (joined : List PlannedStage) : Prop where
  /-- The stages themselves are taken as they are. -/
  stages : joined.map (·.stage) = stages
  /-- Each carries the assignment that is under its id. -/
  assignments : ∀ planned ∈ joined, assignments[planned.stage.id]? = some planned.assignment
  /-- Each carries the workers that are under its id. -/
  workers : ∀ planned ∈ joined, wiring[planned.stage.id]? = some planned.workers

namespace Joined

variable {assignments : StageMap Assignment} {wiring : Wiring} {stages : List Stage}
  {joined : List PlannedStage}

/-- Where two maps hold something for each stage, the stages can be joined with it. -/
theorem exists_of_mem (hassignments : ∀ stage ∈ stages, stage.id ∈ assignments)
    (hwiring : ∀ stage ∈ stages, stage.id ∈ wiring) :
    ∃ joined, Joined assignments wiring stages joined := by
  induction stages with
  | nil => exact ⟨[], rfl, fun _ h => (nomatch h), fun _ h => (nomatch h)⟩
  | cons stage rest ih =>
    obtain ⟨hassignment, hassignments⟩ := List.forall_mem_cons.mp hassignments
    obtain ⟨hworkers, hwiring⟩ := List.forall_mem_cons.mp hwiring
    obtain ⟨joined, rfl, hjoined, hjoined'⟩ := ih hassignments hwiring
    obtain ⟨assignment, hassignment⟩ := mem_iff_exists_entry.mp hassignment
    obtain ⟨workers, hworkers⟩ := mem_iff_exists_entry.mp hworkers
    exact ⟨⟨stage, assignment, workers⟩ :: joined, rfl,
      List.forall_mem_cons.mpr ⟨hassignment, hjoined⟩,
      List.forall_mem_cons.mpr ⟨hworkers, hjoined'⟩⟩

theorem stage_mem (h : Joined assignments wiring stages joined) {planned : PlannedStage}
    (hplanned : planned ∈ joined) : planned.stage ∈ stages :=
  h.stages ▸ List.mem_map_of_mem hplanned

theorem exists_planned (h : Joined assignments wiring stages joined) {stage : Stage}
    (hstage : stage ∈ stages) : ∃ planned ∈ joined, planned.stage = stage :=
  List.mem_map.mp (h.stages ▸ hstage)

theorem map_id (h : Joined assignments wiring stages joined) :
    joined.map (·.stage.id) = stages.map (·.id) := by
  rw [← h.stages, List.map_map]
  rfl

end Joined

/-! ### The graph of some stages -/

/-- The graph of some planned stages, with the first stage of a query as its root. -/
def StageGraph.ofJoined (joined : List PlannedStage) : StageGraph :=
  ⟨rootStageId, (∅ : StageMap PlannedStage).insertMany
    (joined.map fun planned => (planned.stage.id, planned))⟩

/-- **A stage of the graph**, where the ids are distinct, is found under its id. -/
theorem StageGraph.getElem?_ofJoined {joined : List PlannedStage}
    (distinct : (joined.map (·.stage.id)).Nodup) {id : StageId} {planned : PlannedStage} :
    (StageGraph.ofJoined joined).stages[id]? = some planned ↔
      planned ∈ joined ∧ planned.stage.id = id := by
  have hkeys : (joined.map fun planned => (planned.stage.id, planned)).map (·.1) =
      joined.map (·.stage.id) := by
    rw [List.map_map]
    rfl
  rw [ofJoined, mem_insertMany_empty (hkeys ▸ distinct), List.mem_map]
  constructor
  · rintro ⟨found, hfound, heq⟩
    cases heq
    exact ⟨hfound, rfl⟩
  · rintro ⟨hplanned, rfl⟩
    exact ⟨planned, hplanned, rfl⟩

/-- The stages of a graph are what it holds under some id. -/
theorem StageGraph.mem_stageList {graph : StageGraph} {planned : PlannedStage} :
    planned ∈ graph.stageList ↔ ∃ id : StageId, graph.stages[id]? = some planned := by
  rw [stageList, List.mem_map]
  constructor
  · rintro ⟨⟨id, planned⟩, hentry, rfl⟩
    exact ⟨id, Std.ExtTreeMap.mem_toList_iff_getElem?_eq_some.mp hentry⟩
  · rintro ⟨id, hplanned⟩
    exact ⟨(id, planned), Std.ExtTreeMap.mem_toList_iff_getElem?_eq_some.mpr hplanned, rfl⟩

/-- The stages of the graph in the order of their ids, if they were joined in this order. -/
theorem StageGraph.toList_ofJoined {joined : List PlannedStage}
    (ascending : joined.Pairwise fun a b => compare a.stage.id b.stage.id = .lt) :
    (StageGraph.ofJoined joined).stages.toList =
      joined.map fun planned => (planned.stage.id, planned) :=
  toList_insertMany_empty (.refl _) (List.pairwise_map.mpr ascending)

/-! ### Joining -/

namespace DispatchPlan

variable {assignments : StageMap Assignment} {wiring : Wiring}

theorem joinStage_eq_ok {joined : StageMap PlannedStage} {stage : Stage}
    {parts : StageMap Assignment × Wiring × StageMap PlannedStage} :
    joinStage (assignments, wiring, joined) stage = .ok parts ↔
      ∃ assignment workers, assignments[stage.id]? = some assignment ∧
        wiring[stage.id]? = some workers ∧
        parts = (assignments.erase stage.id, wiring.erase stage.id,
          joined.insert stage.id ⟨stage, assignment, workers⟩) := by
  rw [joinStage]
  cases assignments[stage.id]? with
  | none => exact iff_of_false nofun fun ⟨_, _, h, _⟩ => nomatch h
  | some assignment =>
    cases wiring[stage.id]? with
    | none => exact iff_of_false nofun fun ⟨_, _, _, h, _⟩ => nomatch h
    | some workers =>
      constructor
      · intro h
        exact ⟨assignment, workers, rfl, rfl, (Except.ok.inj h).symm⟩
      · rintro ⟨_, _, ⟨⟩, ⟨⟩, rfl⟩
        rfl

/-- Taking out what belongs to a stage leaves what belongs to stages with other ids. -/
theorem joined_erase {rest : List Stage} {id : StageId} {joined : List PlannedStage} :
    Joined (assignments.erase id) (wiring.erase id) rest joined ↔
      id ∉ rest.map (·.id) ∧ Joined assignments wiring rest joined := by
  constructor
  · rintro ⟨rfl, hassignments, hworkers⟩
    refine ⟨fun hid => ?_, rfl, fun planned hplanned => ?_, fun planned hplanned => ?_⟩
    · obtain ⟨stage, hstage, rfl⟩ := List.mem_map.mp hid
      obtain ⟨planned, hplanned, rfl⟩ := List.mem_map.mp hstage
      exact (getElem?_erase_eq_some.mp (hassignments planned hplanned)).1 rfl
    · exact (getElem?_erase_eq_some.mp (hassignments planned hplanned)).2
    · exact (getElem?_erase_eq_some.mp (hworkers planned hplanned)).2
  · rintro ⟨hid, rfl, hassignments, hworkers⟩
    have hne (planned : PlannedStage) (hplanned : planned ∈ joined) : id ≠ planned.stage.id := by
      rintro rfl
      exact hid (List.mem_map_of_mem (List.mem_map_of_mem hplanned))
    exact ⟨rfl, fun planned hplanned =>
        getElem?_erase_eq_some.mpr ⟨hne planned hplanned, hassignments planned hplanned⟩,
      fun planned hplanned =>
        getElem?_erase_eq_some.mpr ⟨hne planned hplanned, hworkers planned hplanned⟩⟩

/-- **Joining stage by stage** succeeds exactly if the ids of the stages are distinct and
the maps hold something for each. -/
theorem foldlM_joinStage_eq_ok {stages : List Stage} {before : StageMap PlannedStage}
    {parts : StageMap Assignment × Wiring × StageMap PlannedStage} :
    stages.foldlM joinStage (assignments, wiring, before) = .ok parts ↔
      (stages.map (·.id)).Nodup ∧ ∃ joined, Joined assignments wiring stages joined ∧
        parts = ((stages.map (·.id)).foldl (fun map id => map.erase id) assignments,
          (stages.map (·.id)).foldl (fun map id => map.erase id) wiring,
          before.insertMany (joined.map fun planned => (planned.stage.id, planned))) := by
  induction stages generalizing assignments wiring before with
  | nil =>
    rw [List.foldlM_nil, pure_eq_ok]
    constructor
    · rintro rfl
      exact ⟨.nil, [], ⟨rfl, fun _ h => (nomatch h), fun _ h => (nomatch h)⟩, by simp⟩
    · rintro ⟨-, joined, ⟨hjoined, -, -⟩, rfl⟩
      obtain rfl := List.map_eq_nil_iff.mp hjoined
      simp
  | cons stage rest ih =>
    rw [foldlM_cons_eq_ok, List.map_cons, List.nodup_cons]
    simp only [joinStage_eq_ok]
    constructor
    · rintro ⟨_, ⟨assignment, workers, hassignment, hworkers, rfl⟩, hrest⟩
      -- a later stage with the same id would find nothing in what is left
      obtain ⟨hdistinct, joined, hjoined, rfl⟩ := ih.mp hrest
      obtain ⟨hnew, hstages, hassignments, hwiring⟩ := joined_erase.mp hjoined
      refine ⟨⟨hnew, hdistinct⟩, ⟨stage, assignment, workers⟩ :: joined, ⟨?_, ?_, ?_⟩, ?_⟩
      · rw [List.map_cons, hstages]
      · exact List.forall_mem_cons.mpr ⟨hassignment, hassignments⟩
      · exact List.forall_mem_cons.mpr ⟨hworkers, hwiring⟩
      · rw [List.map_cons, Std.ExtTreeMap.insertMany_cons]
        rfl
    · rintro ⟨⟨hnew, hdistinct⟩, joined, ⟨hstages, hassignments, hwiring⟩, rfl⟩
      -- the first planned stage is the one that is joined first
      obtain ⟨planned, others, rfl, rfl, rfl⟩ := List.map_eq_cons_iff.mp hstages
      obtain ⟨hassignment, hassignments⟩ := List.forall_mem_cons.mp hassignments
      obtain ⟨hworkers, hwiring⟩ := List.forall_mem_cons.mp hwiring
      refine ⟨_, ⟨planned.assignment, planned.workers, hassignment, hworkers, rfl⟩, ?_⟩
      refine ih.mpr ⟨hdistinct, others, joined_erase.mpr ⟨hnew, rfl, hassignments, hwiring⟩, ?_⟩
      rw [List.map_cons, Std.ExtTreeMap.insertMany_cons]
      rfl

/-- Nothing is left of a map exactly if its keys are among those taken out. -/
theorem foldl_erase_eq_empty {α : Type} {map : StageMap α} {ids : List StageId} :
    ids.foldl (fun map id => map.erase id) map = ∅ ↔ ∀ id ∈ map, id ∈ ids := by
  rw [Std.ExtTreeMap.eq_empty_iff_forall_not_mem]
  simp only [mem_foldl_erase, not_and, not_not]

/-- **Joining succeeds** exactly if the ids of the stages are distinct, both maps are keyed
by them, and the graph of the stages is accepted. -/
theorem assemble_eq_ok {stages : List Stage} {plan : DispatchPlan} :
    assemble stages assignments wiring = .ok plan ↔
      (stages.map (·.id)).Nodup ∧ (∀ id ∈ assignments, id ∈ stages.map (·.id)) ∧
        (∀ id ∈ wiring, id ∈ stages.map (·.id)) ∧
        ∃ joined, Joined assignments wiring stages joined ∧
          ofGraph (.ofJoined joined) = .ok plan := by
  rw [assemble, bind_eq_ok]
  simp only [foldlM_joinStage_eq_ok]
  constructor
  · rintro ⟨_, ⟨hdistinct, joined, hjoined, rfl⟩, hplan⟩
    dsimp only at hplan
    split at hplan
    case h_1 => exact nomatch hplan
    case h_2 hkeys =>
      obtain ⟨hassignments, hwiring⟩ := List.append_eq_nil_iff.mp hkeys
      rw [Std.ExtTreeMap.keys_eq_nil_iff, foldl_erase_eq_empty] at hassignments hwiring
      exact ⟨hdistinct, hassignments, hwiring, joined, hjoined, hplan⟩
  · rintro ⟨hdistinct, hassignments, hwiring, joined, hjoined, hplan⟩
    refine ⟨_, ⟨hdistinct, joined, hjoined, rfl⟩, ?_⟩
    rw [foldl_erase_eq_empty.mpr hassignments, foldl_erase_eq_empty.mpr hwiring]
    exact hplan

end DispatchPlan

end StagedQuery
