import StagedQuery.Proofs.Ids
import StagedQuery.Proofs.Stage.Cutting

/-!
# The stages of a query

`StagedQuery.toStages` treats the border between its two first stages by hand. It is a
border like any other: the whole query under one more exchange
(`StagedQuery.PlanTree.collected`), cut for stage 0. What stays in stage 0 is then the
receive at which the result arrives, and the stages cut off are all the others
(`StagedQuery.PlanTree.fragments`), so that whatever is shown of every cut holds of the
first border too.

The stages come out in the order of their ids, and this is the order in which they are
opened, as long as the ids do not run out (`StagedQuery.PlanTree.FitsIds`).
-/

namespace StagedQuery

namespace PlanTree

/-- The query under the exchange that collects its result. -/
def collected (root : PlanTree) : PlanTree :=
  ⟨Id.ofNat 0, Id.ofNat 0, .exchange .singleton [], [root]⟩

/-- The stage at which the result of a query arrives. -/
def arrival (root : PlanTree) : Stage := ⟨rootStageId, kept rootStageId 1 0 root.collected⟩

/-- **The stages of a query** in the order of their ids. -/
def fragments (root : PlanTree) : List Stage :=
  root.arrival :: opened rootStageId 1 0 root.collected

/-- Every stage of a query but the first has been cut off. -/
theorem mem_fragments {root : PlanTree} {stage : Stage} : stage ∈ root.fragments ↔
    stage = root.arrival ∨ stage ∈ opened rootStageId 1 0 root.collected :=
  List.mem_cons

theorem root_arrival (root : PlanTree) :
    root.arrival.root = ⟨Id.ofNat 0, rootStageId, .receive ⟨Id.ofNat 1, .singleton⟩, []⟩ := by
  rw [arrival, collected, kept_exchange]

/-- Fewer than `2 ^ 32` node ids are handed out for a query: one for each node, one more
for each exchange, and two for the border at which the result is collected. There are
fewer stages than that. -/
def FitsIds (root : PlanTree) : Prop :=
  root.nodes.length + exchangeCount root.nodes + 2 < 2 ^ 32

instance (root : PlanTree) : Decidable root.FitsIds :=
  inferInstanceAs (Decidable (_ < _))

/-- No more than `2 ^ 32` stage ids are handed out for a query: one for each exchange, and
two for the border at which the result is collected. -/
def FitsStages (root : PlanTree) : Prop := exchangeCount root.nodes + 2 ≤ 2 ^ 32

theorem FitsIds.stages {root : PlanTree} (fits : root.FitsIds) : root.FitsStages := by
  rw [FitsIds] at fits
  rw [FitsStages]
  omega

theorem nodes_collected (root : PlanTree) :
    root.collected.nodes = root.collected :: root.nodes := by
  rw [collected, nodes_mk, List.flatMap_cons, List.flatMap_nil, List.append_nil]

theorem exchangeCount_collected (root : PlanTree) :
    exchangeCount root.collected.nodes = exchangeCount root.nodes + 1 := by
  rw [nodes_collected]
  exact List.countP_cons_of_pos rfl

theorem idCount_collected (root : PlanTree) :
    idCount root.collected.nodes = root.nodes.length + exchangeCount root.nodes + 2 := by
  rw [idCount, exchangeCount_collected, nodes_collected, List.length_cons]
  omega

/-! ### The ids of the stages -/

/-- The stages cut off have consecutive numbers. -/
theorem map_id_opened :
    (∀ s k n tree, (opened s k n tree).map (·.id) =
      (List.range' k (exchangeCount tree.nodes)).map Id.ofNat) ∧
    ∀ s k n inputs, (openedList s k n inputs).map (·.id) =
      (List.range' k (exchangeCount (inputs.flatMap nodes))).map Id.ofNat := by
  refine cutInduction (fun s k n id stage distribution keys inputs ih => ?_)
    (fun s k n id stage operator inputs h ih => ?_) (fun s k n => ?_)
    fun s k n node rest hnode hrest => ?_
  · rw [opened_exchange, exchangeCount_exchange, List.range'_succ, List.map_cons, List.map_cons, ih]
    rfl
  · rw [opened_inner _ _ _ _ _ _ h, exchangeCount_inner _ _ _ h, ih]
  · rw [openedList]
    rfl
  · rw [openedList, List.map_append, hnode, hrest, List.flatMap_cons, exchangeCount_append,
      ← List.map_append, List.range'_append_1]

/-- The stages of a query are numbered from zero. -/
theorem map_id_fragments (root : PlanTree) :
    root.fragments.map (·.id) =
      (List.range' 0 (exchangeCount root.nodes + 2)).map Id.ofNat := by
  rw [fragments, List.map_cons, map_id_opened.1, exchangeCount_collected, List.range'_succ,
    List.map_cons]
  rfl

/-- The ids of the stages ascend. -/
theorem FitsStages.pairwise {root : PlanTree} (fits : root.FitsStages) :
    root.fragments.Pairwise fun a b => compare a.id b.id = .lt := by
  have hids : ((List.range' 0 (exchangeCount root.nodes + 2)).map
      (Id.ofNat : Nat → StageId)).Pairwise fun a b => compare a b = .lt :=
    Id.pairwise_map_ofNat (by rw [FitsStages] at fits; omega)
  rw [← map_id_fragments] at hids
  exact List.pairwise_map.mp hids

/-- The ids of the stages of a query are distinct. -/
theorem FitsStages.nodup_id {root : PlanTree} (fits : root.FitsStages) :
    (root.fragments.map (·.id)).Nodup :=
  List.pairwise_map.mpr (fits.pairwise.imp ne_of_compare_lt)

theorem nodup_id_fragments {root : PlanTree} (fits : root.FitsIds) :
    (root.fragments.map (·.id)).Nodup :=
  fits.stages.nodup_id

theorem closed_collected (root : PlanTree) :
    closed rootStageId 1 0 root.collected =
      closed (Id.ofNat 1) 2 2 root ++ [stageOver rootStageId 1 0 .singleton [] [root]] := by
  rw [collected, closed_exchange, closedList, closedList, List.append_nil]

/-- The stages of a query in the order in which they are finished. -/
theorem fragments_perm (root : PlanTree) :
    (closed rootStageId 1 0 root.collected ++
      [root.arrival]).Perm root.fragments :=
  (List.perm_append_singleton _ _).trans ((closed_perm.1 _ _ _ _).cons _)

end PlanTree

/-! ### Cutting a query -/

theorem recordAll_eq (recorded : StageMap Stage) (stages : List Stage) :
    recordAll recorded stages =
      recorded.insertMany (stages.map fun stage => (stage.id, stage)) := by
  rw [Std.ExtTreeMap.insertMany_list_eq_foldl, List.foldl_map]
  rfl

/-- **Cutting a query** records its stages as they are finished, if each of its nodes can be
cut; the first that cannot, in pre-order, is refused. -/
theorem toStages_eq_recorded (root : PlanTree) :
    toStages root = (forM root.nodes PlanTree.checkCut).map fun _ =>
      (recordAll ∅ (PlanTree.closed rootStageId 1 0 root.collected ++
        [root.arrival])).toList.map (·.2) := by
  rw [toStages]
  dsimp only [Cuts.none, Cuts.takeStage, Cuts.takeNode]
  rw [PlanTree.cut_eq, PlanTree.closed_collected, List.append_assoc, recordAll_append]
  cases forM root.nodes PlanTree.checkCut <;> rfl

theorem forM_checkCut_eq_ok {root : PlanTree} :
    forM root.nodes PlanTree.checkCut = .ok () ↔ ∀ node ∈ root.nodes, node.Cuttable :=
  forM_eq_ok.trans (forall₂_congr fun _ _ => PlanTree.checkCut_eq_ok)

/-- As long as the ids of stages do not run out, the stages that are recorded are those of the
query, in the order of their ids. -/
theorem PlanTree.FitsStages.toStages_eq {root : PlanTree} (fits : root.FitsStages) :
    toStages root = (forM root.nodes PlanTree.checkCut).map fun _ => root.fragments := by
  have hlist := toList_insertMany_empty ((PlanTree.fragments_perm root).map
    fun stage => (stage.id, stage)) (List.pairwise_map.mpr fits.pairwise)
  have hfragments := congrArg (List.map Prod.snd) hlist
  rw [List.map_map, ← recordAll_eq] at hfragments
  rw [toStages_eq_recorded, hfragments]
  refine congrArg (fun stages => (forM root.nodes PlanTree.checkCut).map fun _ => stages) ?_
  exact List.map_id _

/-- A query can be cut exactly if each of its nodes can, and then its stages are known. -/
theorem PlanTree.FitsStages.toStages_eq_ok {root : PlanTree} (fits : root.FitsStages)
    {stages : List Stage} : toStages root = .ok stages ↔
      (∀ node ∈ root.nodes, node.Cuttable) ∧ root.fragments = stages := by
  rw [fits.toStages_eq, map_eq_ok, ← forM_checkCut_eq_ok]
  exact ⟨fun ⟨⟨⟩, hnodes, hstages⟩ => ⟨hnodes, hstages⟩,
    fun ⟨hnodes, hstages⟩ => ⟨(), hnodes, hstages⟩⟩

theorem toStages_eq_ok {root : PlanTree} (fits : root.FitsIds) {stages : List Stage} :
    toStages root = .ok stages ↔
      (∀ node ∈ root.nodes, node.Cuttable) ∧ root.fragments = stages :=
  fits.stages.toStages_eq_ok

/-- What is said of a query that cannot be cut is said of one of its nodes. -/
theorem toStages_eq_error {root : PlanTree} (fits : root.FitsIds) {fault : PlanError}
    (h : toStages root = .error fault) :
    (∃ node ∈ root.nodes, node.checkInputCount = .error fault) ∨ fault = .planning .alreadyCut := by
  rw [fits.stages.toStages_eq, map_eq_error] at h
  obtain ⟨node, hnode, hfault⟩ := exists_of_forM_eq_error h
  rcases PlanTree.checkCut_eq_error hfault with hcount | hcut
  · exact .inl ⟨node, hnode, hcount⟩
  · exact .inr hcut

end StagedQuery
