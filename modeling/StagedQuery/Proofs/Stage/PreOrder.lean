import StagedQuery.Proofs.Stage.Rejoining

/-!
# Stages form a tree that is numbered in pre-order

Cutting hands out two series of ids. A stage gets its number when the exchange that opens it is
reached, and a node gets its number before those below it, but a stage is finished only after
all stages below it, and the nodes of other stages are numbered between a node and its next
sibling. What comes out is numbered all the same as if there had been one walk over the query
(`StagedQuery.InPreOrder`):

* the stages are listed by their numbers, and the exchanges of the query opened them in pre-order;
* each stage but the first has one receiver, with a smaller number, and is named by one receive,
  which that receiver holds – so the stages form a tree with stage 0 at its root;
* a walk over the stages, which goes on at a receive with the root of the stage that it names,
  meets the nodes in the order of their numbers, and all nodes of all stages
  (`StagedQuery.tour`).

That the walk over the stages is the walk over the query is shown along the query as it is cut
(`StagedQuery.PlanTree.visits_kept`); it says nothing of numbers. The numbers of the nodes are then
those of the walk over the query, and the receives are met in the order in which they opened
stages (`StagedQuery.PlanTree.receivedStages_held`).
-/

namespace StagedQuery

/-! ### The walk over the stages -/

namespace PlanTree

mutual

/-- The nodes that a walk over a tree meets: a node, then what is met below it. That is what is
met of its inputs, or at a receive what `enter` gives for the stage that it names. -/
def visits (enter : StageId → Option (List PlanTree)) : PlanTree → Option (List PlanTree)
  | ⟨id, stage, operator, inputs⟩ =>
    match operator with
    | .receive receive => (enter receive.sender).map (⟨id, stage, operator, inputs⟩ :: ·)
    | operator => (visitsList enter inputs).map (⟨id, stage, operator, inputs⟩ :: ·)

/-- The nodes that a walk over several trees meets, one tree after the other. -/
def visitsList (enter : StageId → Option (List PlanTree)) : List PlanTree → Option (List PlanTree)
  | [] => some []
  | node :: rest => do
    let met ← visits enter node
    let others ← visitsList enter rest
    return met ++ others

end

theorem visits_inner (enter : StageId → Option (List PlanTree)) (id : NodeId) (stage : StageId)
    {operator : Operator} (inputs : List PlanTree) (h : ∀ receive, operator ≠ .receive receive) :
    visits enter ⟨id, stage, operator, inputs⟩ =
      (visitsList enter inputs).map (⟨id, stage, operator, inputs⟩ :: ·) := by
  rw [visits]
  exact h

end PlanTree

/-- **The walk over the stages from the root of one of them.** It goes on at a receive with the
root of the stage that it names, through at most `borders` stages, one below the other. -/
def tour (stages : List Stage) : Nat → StageId → Option (List PlanTree)
  | 0, _ => none
  | borders + 1, id => do
    let stage ← stages.find? fun stage => stage.id == id
    stage.root.visits (tour stages borders)

namespace PlanTree

/-- **The walk over the stages is that over the query**, if all stages cut off are at hand. -/
theorem visits_kept (stages : List Stage) :
    (∀ s k n tree, (∀ node ∈ tree.nodes, node.Cuttable) →
      (∀ stage ∈ opened s k n tree, stages.find? (fun other => other.id == stage.id) = some stage) →
      ∀ borders, exchangeCount tree.nodes ≤ borders →
      visits (tour stages borders) (kept s k n tree) = some ((held s k n tree).map (·.2))) ∧
    ∀ s k n inputs, (∀ node ∈ inputs.flatMap nodes, node.Cuttable) →
      (∀ stage ∈ openedList s k n inputs,
        stages.find? (fun other => other.id == stage.id) = some stage) →
      ∀ borders, exchangeCount (inputs.flatMap nodes) ≤ borders →
      visitsList (tour stages borders) (keptList s k n inputs) =
        some ((heldList s k n inputs).map (·.2)) := by
  refine cutInduction
    (fun s k n id stage distribution keys inputs ih hcut hfind borders hborders => ?_)
    (fun s k n id stage operator inputs h ih hcut hfind borders hborders => ?_)
    (fun s k n _ _ borders _ => ?_)
    fun s k n node rest hnode hrest hcut hfind borders hborders => ?_
  · rw [exchangeCount_exchange] at hborders
    obtain ⟨borders, rfl⟩ := Nat.exists_eq_add_of_le' (Nat.le_of_add_left_le hborders)
    rw [opened_exchange, List.forall_mem_cons] at hfind
    obtain ⟨hstage, hbelow⟩ := hfind
    have hvisits := ih (forall_nodes_mk.mp hcut).2 hbelow borders (by omega)
    -- the receive leads to the send at the root of the stage that the exchange opened
    have hentered : tour stages (borders + 1) (Id.ofNat k) =
        some ((stageOver s k n distribution keys inputs).root ::
          (heldList (Id.ofNat k) (k + 1) (n + 2) inputs).map (·.2)) := by
      rw [tour]
      refine (congrArg (Option.bind · _) hstage).trans ?_
      have hsend (receive : Receive) : Operator.send ⟨[s], distribution, keys⟩ ≠
          .receive receive := nofun
      dsimp only [Option.bind_some, stageOver]
      rw [visits_inner _ _ _ _ hsend, hvisits]
      rfl
    rw [kept_exchange, visits, hentered, held_exchange]
    rfl
  · obtain ⟨hroot, hinputs⟩ := forall_nodes_mk.mp hcut
    rw [exchangeCount_inner _ _ _ h] at hborders
    rw [opened_inner _ _ _ _ _ _ h] at hfind
    have hvisits := ih hinputs hfind borders hborders
    have hreceive : ∀ receive, operator ≠ .receive receive := hroot.ne_receive
    rw [kept_inner _ _ _ _ _ _ h, visits_inner _ _ _ _ hreceive, hvisits, held_inner _ _ _ _ _ _ h]
    rfl
  · rw [keptList, heldList, visitsList]
    rfl
  · rw [List.flatMap_cons, List.forall_mem_append] at hcut
    rw [openedList, List.forall_mem_append] at hfind
    rw [List.flatMap_cons, exchangeCount_append] at hborders
    have hfirst := hnode hcut.1 hfind.1 borders (by omega)
    have hothers := hrest hcut.2 hfind.2 borders (by omega)
    rw [keptList, heldList, visitsList, hfirst, hothers, List.map_append]
    rfl

/-- **The walk over the query meets the receives in the order in which they opened stages.** -/
theorem receivedStages_held :
    (∀ s k n tree, (∀ node ∈ tree.nodes, node.Cuttable) →
      ((held s k n tree).map (·.2)).filterMap (·.operator.receivedStage?) =
        (List.range' k (exchangeCount tree.nodes)).map Id.ofNat) ∧
    ∀ s k n inputs, (∀ node ∈ inputs.flatMap nodes, node.Cuttable) →
      ((heldList s k n inputs).map (·.2)).filterMap (·.operator.receivedStage?) =
        (List.range' k (exchangeCount (inputs.flatMap nodes))).map Id.ofNat := by
  refine cutInduction (fun s k n id stage distribution keys inputs ih hcut => ?_)
    (fun s k n id stage operator inputs h ih hcut => ?_) (fun s k n _ => ?_)
    fun s k n node rest hnode hrest hcut => ?_
  · rw [held_exchange, exchangeCount_exchange, List.range'_succ, List.map_cons, List.map_cons,
      List.map_cons, ← ih (forall_nodes_mk.mp hcut).2]
    rfl
  · obtain ⟨hroot, hinputs⟩ := forall_nodes_mk.mp hcut
    have hnone : operator.receivedStage? = none := by
      cases operator with
      | receive receive => exact absurd rfl (hroot.ne_receive receive)
      | _ => rfl
    rw [held_inner _ _ _ _ _ _ h, exchangeCount_inner _ _ _ h, List.map_cons, ← ih hinputs]
    exact List.filterMap_cons_none hnone
  · rw [heldList]
    rfl
  · rw [List.flatMap_cons, List.forall_mem_append] at hcut
    rw [heldList, List.map_append, List.filterMap_append, hnode hcut.1, hrest hcut.2,
      List.flatMap_cons, exchangeCount_append, ← List.map_append, List.range'_append_1]

/-! ### Which exchange opened which stage -/

theorem withoutIdsList_eq (inputs : List PlanTree) :
    withoutIdsList inputs = inputs.map withoutIds := by
  induction inputs with
  | nil => rfl
  | cons node rest ih => rw [withoutIdsList, ih, List.map_cons]

/-- Ids may be dropped before or after the nodes are listed. -/
theorem nodes_withoutIds (tree : PlanTree) : tree.withoutIds.nodes = tree.nodes.map withoutIds := by
  induction tree with
  | node id stage operator inputs ih =>
    rw [withoutIds, unplaced, nodes_mk, nodes_mk, List.map_cons, withoutIdsList_eq,
      List.flatMap_map, List.map_flatMap, withoutIds, unplaced, withoutIdsList_eq]
    exact congrArg _ (List.flatMap_congr ih)

/-- The exchanges of a tree, in pre-order. -/
def exchanges (tree : PlanTree) : List PlanTree := tree.nodes.filter (·.operator.isExchange)

theorem withoutIds_exchanges (tree : PlanTree) :
    tree.exchanges.map withoutIds = tree.withoutIds.exchanges := by
  have hoperator : (fun node : PlanTree => node.withoutIds.operator.isExchange) =
      fun node => node.operator.isExchange := by
    funext node
    obtain ⟨id, stage, operator, inputs⟩ := node
    rw [withoutIds]
    rfl
  rw [exchanges, exchanges, nodes_withoutIds, List.filter_map, Function.comp_def, hoperator]

/-- **The stage was opened by the exchange**, in a query that has been put together again: the
exchange has the ids of the send at the root of the stage, and hands out the rows as it does. -/
structure Opens (exchange : PlanTree) (stage : Stage) : Prop where
  /-- The exchange says that it belongs to the stage. -/
  held : exchange.stage = stage.id
  /-- It is the root of the stage. -/
  rooted : exchange.id = stage.root.id
  /-- It became a send. -/
  sends : ∃ receivers distribution keys, exchange.operator = .exchange distribution keys ∧
    stage.root.operator = .send ⟨receivers, distribution, keys⟩

/-- **The exchanges opened the stages in pre-order**: in what is put together again, they stand
in the order of the stages that were cut off. -/
theorem opens_replaceReceives (stages : List Stage) :
    (∀ s k n tree, (∀ node ∈ tree.nodes, node.Cuttable) →
      (∀ stage ∈ opened s k n tree, stages.find? (fun other => other.id == stage.id) = some stage) →
      ∀ borders whole, replaceReceives (behind stages borders) (kept s k n tree) = some whole →
      List.Forall₂ Opens whole.exchanges (opened s k n tree)) ∧
    ∀ s k n inputs, (∀ node ∈ inputs.flatMap nodes, node.Cuttable) →
      (∀ stage ∈ openedList s k n inputs,
        stages.find? (fun other => other.id == stage.id) = some stage) →
      ∀ borders wholes, replaceReceivesIn (behind stages borders) (keptList s k n inputs) =
        some wholes →
      List.Forall₂ Opens ((wholes.flatMap nodes).filter (·.operator.isExchange))
        (openedList s k n inputs) := by
  refine cutInduction
    (fun s k n id stage distribution keys inputs ih hcut hfind borders whole h => ?_)
    (fun s k n id stage operator inputs hex ih hcut hfind borders whole h => ?_)
    (fun s k n _ _ borders wholes h => ?_)
    fun s k n node rest hnode hrest hcut hfind borders wholes h => ?_
  · rw [opened_exchange, List.forall_mem_cons] at hfind
    obtain ⟨hstage, hbelow⟩ := hfind
    rw [kept_exchange, replaceReceives] at h
    cases borders with
    | zero => cases h
    | succ borders =>
      rw [behind] at h
      obtain ⟨found, hfound, h⟩ := Option.bind_eq_some_iff.mp h
      obtain rfl : stageOver s k n distribution keys inputs = found :=
        Option.some.inj (hstage.symm.trans hfound)
      obtain ⟨wholes, hwholes, h⟩ := Option.bind_eq_some_iff.mp h
      cases h
      rw [exchanges, nodes_mk, opened_exchange, List.filter_cons_of_pos rfl]
      refine .cons ⟨rfl, rfl, [s], distribution, keys, rfl, rfl⟩ ?_
      exact ih (forall_nodes_mk.mp hcut).2 hbelow borders wholes hwholes
  · obtain ⟨hroot, hinputs⟩ := forall_nodes_mk.mp hcut
    rw [opened_inner _ _ _ _ _ _ hex] at hfind ⊢
    have hreceive : ∀ receive, operator ≠ .receive receive := hroot.ne_receive
    rw [kept_inner _ _ _ _ _ _ hex, replaceReceives_inner _ _ _ _ hreceive] at h
    obtain ⟨wholes, hwholes, rfl⟩ := Option.map_eq_some_iff.mp h
    have hskip : ¬operator.isExchange = true := by simp [hex]
    rw [exchanges, nodes_mk, List.filter_cons_of_neg
      (p := fun node : PlanTree => node.operator.isExchange) hskip]
    exact ih hinputs hfind borders wholes hwholes
  · rw [keptList] at h
    cases h
    rw [openedList]
    exact .nil
  · rw [List.flatMap_cons, List.forall_mem_append] at hcut
    rw [openedList] at hfind ⊢
    obtain ⟨hfirst, hothers⟩ := List.forall_mem_append.mp hfind
    rw [keptList, replaceReceivesIn] at h
    obtain ⟨whole, hwhole, h⟩ := Option.bind_eq_some_iff.mp h
    obtain ⟨wholes, hwholes, h⟩ := Option.bind_eq_some_iff.mp h
    cases h
    rw [List.flatMap_cons, List.filter_append]
    exact List.rel_append (hnode hcut.1 hfirst borders whole hwhole)
      (hrest hcut.2 hothers borders wholes hwholes)

end PlanTree

/-! ### The stages of a query -/

/-- **The stages of a query form a tree that is numbered in pre-order.** -/
structure InPreOrder (root : PlanTree) (stages : List Stage) : Prop where
  /-- There are two stages more than exchanges, and they are listed by their numbers. -/
  numbered : stages.map (·.id.number.toNat) =
    List.range (PlanTree.exchangeCount root.nodes + 2)
  /-- The exchanges of the query opened the stages from number 2 on, in pre-order. In the query
  that is put together again, which is the same up to ids, each has the id of the stage. -/
  opened : ∃ below whole, (stages[1]?).map (·.root.inputs) = some [below] ∧
    rejoin stages below = some whole ∧ whole.withoutIds = root.withoutIds ∧
    whole.exchanges.map PlanTree.withoutIds = root.exchanges.map PlanTree.withoutIds ∧
    List.Forall₂ PlanTree.Opens whole.exchanges (stages.drop 2)
  /-- Every stage but the first has one receiver, which has a smaller number. There is one receive
  that names the stage, and the receiver holds it. -/
  received : ∀ stage ∈ stages, stage.id ≠ rootStageId → ∃ holder ∈ stages,
    stage.receivers = [holder.id] ∧ holder.id.number < stage.id.number ∧
      stage.id ∈ holder.senders ∧ (stages.flatMap Stage.senders).count stage.id = 1
  /-- Every node says which stage holds it. -/
  held : ∀ stage ∈ stages, ∀ node ∈ stage.root.nodes, node.stage = stage.id
  /-- The walk over the stages meets the nodes in the order of their numbers, and all of them. -/
  toured : ∃ met, tour stages stages.length rootStageId = some met ∧
    met.map (·.id.number.toNat) = List.range met.length ∧
    met.Perm (stages.flatMap (·.root.nodes))

namespace PlanTree

variable {root : PlanTree}

/-- The walk over the query meets the nodes of all its stages. -/
theorem map_snd_held_perm (root : PlanTree) :
    ((held rootStageId 1 0 root.collected).map (·.2)).Perm
      (root.fragments.flatMap (·.root.nodes)) := by
  refine ((held_collected_perm root).map (·.2)).trans (.of_eq ?_)
  rw [nodesOfStages, List.map_flatMap]
  refine List.flatMap_congr fun stage _ => ?_
  rw [List.map_map]
  exact List.map_id _

theorem length_fragments (root : PlanTree) :
    root.fragments.length = exchangeCount root.nodes + 2 := by
  have hlength := congrArg List.length (map_id_fragments root)
  rwa [List.length_map, List.length_map, List.length_range'] at hlength

/-- **The walk over the stages of a query** is that over the query. -/
theorem tour_fragments (fits : root.FitsIds) (hcut : ∀ node ∈ root.nodes, node.Cuttable) :
    tour root.fragments root.fragments.length rootStageId =
      some ((held rootStageId 1 0 root.collected).map (·.2)) := by
  have hdistinct := nodup_id_fragments fits
  have hvisits := (visits_kept root.fragments).1 rootStageId 1 0 root.collected
    (cuttable_collected hcut)
    (fun stage hstage => find?_id_eq_some hdistinct (List.mem_cons_of_mem _ hstage))
    (exchangeCount root.nodes + 1) (Nat.le_of_eq (exchangeCount_collected root))
  have hfind : root.fragments.find? (fun stage => stage.id == rootStageId) = some root.arrival :=
    find?_id_eq_some hdistinct (List.mem_cons_self : root.arrival ∈ root.fragments)
  rw [length_fragments, tour]
  exact (congrArg (Option.bind · _) hfind).trans hvisits

/-- The walk meets the nodes in the order of their numbers. -/
theorem numbers_held_collected (fits : root.FitsIds) :
    ((held rootStageId 1 0 root.collected).map (·.2)).map (·.id.number.toNat) =
      List.range ((held rootStageId 1 0 root.collected).map (·.2)).length := by
  have hle : idCount root.collected.nodes ≤ 2 ^ 32 := by
    rw [FitsIds] at fits
    rw [idCount_collected]
    omega
  rw [List.map_map, List.length_map]
  exact numbers_held hle

/-- The query is put together again from what its second stage holds, with the exchanges in the
order of the stages that they opened. -/
theorem exists_rejoined (fits : root.FitsIds) (hcut : ∀ node ∈ root.nodes, node.Cuttable) :
    ∃ whole, rejoin root.fragments (kept (Id.ofNat 1) 2 2 root) = some whole ∧
      whole.withoutIds = root.withoutIds ∧
      List.Forall₂ Opens whole.exchanges (opened (Id.ofNat 1) 2 2 root) := by
  have hfind : ∀ stage ∈ opened (Id.ofNat 1) 2 2 root,
      root.fragments.find? (fun other => other.id == stage.id) = some stage := by
    intro stage hstage
    refine find?_id_eq_some (nodup_id_fragments fits) (mem_fragments.mpr (.inr ?_))
    rw [collected, opened_exchange, openedList, openedList, List.append_nil]
    exact List.mem_cons_of_mem _ hstage
  have hbound : exchangeCount root.nodes ≤ root.fragments.length := by
    rw [length_fragments]
    omega
  obtain ⟨whole, hwhole, hsame⟩ :=
    (replaceReceives_kept root.fragments).1 _ _ _ _ hcut hfind _ hbound
  exact ⟨whole, hwhole, hsame,
    (opens_replaceReceives root.fragments).1 _ _ _ _ hcut hfind _ whole hwhole⟩

/-- **The stages are named by the receives once each**, over all stages of a query. -/
theorem senders_fragments_perm (hcut : ∀ node ∈ root.nodes, node.Cuttable) :
    (root.fragments.flatMap Stage.senders).Perm
      ((opened rootStageId 1 0 root.collected).map (·.id)) := by
  have hsenders : root.fragments.flatMap Stage.senders =
      (root.fragments.flatMap (·.root.nodes)).filterMap (·.operator.receivedStage?) := by
    rw [List.filterMap_flatMap]
    exact List.flatMap_congr fun stage _ => stage.root.senders_eq
  rw [hsenders, map_id_opened.1, ← receivedStages_held.1 _ _ 0 _ (cuttable_collected hcut)]
  exact (map_snd_held_perm root).symm.filterMap _

/-- **A stage that was cut off has one receiver**, with a smaller number. -/
theorem received_of_opened (fits : root.FitsIds) (hcut : ∀ node ∈ root.nodes, node.Cuttable)
    {stage : Stage} (hstage : stage ∈ opened rootStageId 1 0 root.collected) :
    ∃ holder ∈ root.fragments, stage.receivers = [holder.id] ∧
      holder.id.number < stage.id.number ∧ stage.id ∈ holder.senders := by
  obtain ⟨⟨_, node⟩, hentry, distribution, keys, hreceive, hsend⟩ :=
    (openedSound_of_mem hcut hstage).feeds
  obtain ⟨holder, hholder, hmem⟩ := List.mem_flatMap.mp hentry
  obtain ⟨node, hnode, ⟨⟩⟩ := List.mem_map.mp hmem
  refine ⟨holder, hholder, ?_, ?_, mem_senders.mpr ⟨node, hnode, _, hreceive, rfl⟩⟩
  · rw [Stage.receivers, hsend]
    rfl
  · have hheld := (held_collected_perm root).mem_iff.mpr (mem_nodesOfStages hholder hnode)
    obtain ⟨i, j, hi, hj, hij, hlt⟩ := held_ascends.1 _ _ _ _ (cuttable_collected hcut) 0 rfl
      Nat.zero_lt_one _ hheld _ hreceive
    rw [exchangeCount_collected] at hlt
    rw [FitsIds] at fits
    dsimp only at hi hj
    rw [hi, hj, UInt32.lt_iff_toNat_lt, Id.toNat_ofNat (by omega), Id.toNat_ofNat (by omega)]
    exact hij

end PlanTree

/-- **Cutting a query gives stages that form a tree, numbered in pre-order**, whatever ids the
nodes of the query carry. -/
theorem toStages_inPreOrder {root : PlanTree} {stages : List Stage} (fits : root.FitsIds)
    (h : toStages root = .ok stages) : InPreOrder root stages := by
  obtain ⟨hcut, rfl⟩ := (toStages_eq_ok fits).mp h
  have hopened := PlanTree.opened_exchange rootStageId 1 0 (Id.ofNat 0) (Id.ofNat 0) [root]
    .singleton []
  refine ⟨?_, ?_, fun stage hstage hne => ?_, PlanTree.stage_of_fragments, ?_⟩
  · have hle : 0 + (PlanTree.exchangeCount root.nodes + 2) ≤ 2 ^ 32 := by
      have := fits.stages
      rw [PlanTree.FitsStages] at this
      omega
    rw [List.range_eq_range', ← Id.map_toNat_map_ofNat hle, ← PlanTree.map_id_fragments,
      List.map_map]
    rfl
  · obtain ⟨whole, hwhole, hsame, hopens⟩ := PlanTree.exists_rejoined fits hcut
    have hexchanges : whole.exchanges.map PlanTree.withoutIds =
        root.exchanges.map PlanTree.withoutIds := by
      rw [PlanTree.withoutIds_exchanges, PlanTree.withoutIds_exchanges, hsame]
    refine ⟨_, whole, ?_, hwhole, hsame, hexchanges, ?_⟩
    · rw [PlanTree.fragments, PlanTree.collected, hopened]
      rfl
    · rw [PlanTree.fragments, PlanTree.collected, hopened, PlanTree.openedList, PlanTree.openedList,
        List.append_nil]
      exact hopens
  · have hmem : stage ∈ PlanTree.opened rootStageId 1 0 root.collected := by
      refine (PlanTree.mem_fragments.mp hstage).resolve_left ?_
      rintro rfl
      exact hne rfl
    obtain ⟨holder, hholder, hreceivers, hless, hsenders⟩ :=
      PlanTree.received_of_opened fits hcut hmem
    refine ⟨holder, hholder, hreceivers, hless, hsenders, ?_⟩
    -- the receives name the stages that were cut off, and no two of these have the same id
    have hdistinct := (List.nodup_cons.mp (PlanTree.nodup_id_fragments fits)).2
    rw [(PlanTree.senders_fragments_perm hcut).count_eq]
    exact List.count_eq_one_of_mem hdistinct (List.mem_map_of_mem hmem)
  · exact ⟨_, PlanTree.tour_fragments fits hcut, PlanTree.numbers_held_collected fits,
      PlanTree.map_snd_held_perm root⟩

/-- A join of two inputs that come from other stages, the first of them through two. -/
def PlanTree.exchangedSides : PlanTree :=
  .join .inner [("a", "b")]
    (.exchange .hash ["a"] (.exchange .random [] (.tableScan "t" ["a"])))
    (.exchange .hash ["b"] (.tableScan "u" ["b"]))

/-- The stages of the join: the third and the fourth are opened on its left side, one below the
other, and the fifth on its right side. -/
theorem toStages_inPreOrder_exchangedSides : ∃ stages,
    PlanTree.exchangedSides.FitsIds ∧ toStages .exchangedSides = .ok stages ∧
      stages.length = 5 ∧ InPreOrder .exchangedSides stages := by
  have fits : PlanTree.exchangedSides.FitsIds := by decide
  have hsome : ((toStages .exchangedSides).toOption.any fun stages => stages.length == 5) =
      true := by decide +kernel
  obtain ⟨stages, hstages, hlength⟩ := (Option.any_eq_true _ _).mp hsome
  have hstages := toOption_eq_some.mp hstages
  exact ⟨stages, fits, hstages, eq_of_beq hlength, toStages_inPreOrder fits hstages⟩

end StagedQuery
