import Mathlib.Logic.Relation
import StagedQuery.Proofs.Stage.Fragments

/-!
# Which stage holds which node

Walking a query from its root, and going on at a receive in the stage that feeds it,
meets the nodes of all stages in the order in which they were numbered
(`StagedQuery.PlanTree.held`, `StagedQuery.PlanTree.map_id_held`). Each node comes with
the stage that holds it. The list has the nodes of the part that stays and of the stages
cut off, and no others (`StagedQuery.PlanTree.held_perm`), so that what is asked of every
node of every stage is asked of the list, where the nodes of one exchange – a receive in
one stage and a send in the next – stand side by side.

What holds of the nodes of a query that can be cut (`StagedQuery.PlanTree.held_sound`) is
what the stages need to be run: they have the inputs that their operators take, no
exchange is left, and a receive is fed by a stage that sends to its holder alone.
-/

namespace StagedQuery

/-- Among the stages one sends to `holder`, and to no other stage, what `receive`
takes. -/
def Fed (stages : List Stage) (holder : StageId) (receive : Receive) : Prop :=
  ∃ stage ∈ stages, stage.id = receive.sender ∧
    ∃ keys, stage.root.operator = .send ⟨[holder], receive.distribution, keys⟩

theorem Fed.mono {stages stages' : List Stage} {holder : StageId} {receive : Receive}
    (h : Fed stages holder receive) (hsub : stages ⊆ stages') : Fed stages' holder receive := by
  obtain ⟨stage, hmem, hrest⟩ := h
  exact ⟨stage, hsub hmem, hrest⟩

namespace PlanTree

mutual

/-- The nodes that a tree is cut into, each with the stage that holds it: a node, then
what its inputs are cut into, going on behind a receive with the send that feeds it. -/
def held (s : StageId) (k n : Nat) : PlanTree → List (StageId × PlanTree)
  | ⟨id, stage, operator, inputs⟩ =>
    match operator with
    | .exchange distribution keys =>
      (s, kept s k n ⟨id, stage, .exchange distribution keys, inputs⟩) ::
        (Id.ofNat k, (stageOver s k n distribution keys inputs).root) ::
        heldList (Id.ofNat k) (k + 1) (n + 2) inputs
    | operator => (s, kept s k n ⟨id, stage, operator, inputs⟩) :: heldList s k (n + 1) inputs

/-- The nodes that several trees are cut into. -/
def heldList (s : StageId) (k n : Nat) : List PlanTree → List (StageId × PlanTree)
  | [] => []
  | node :: rest =>
    held s k n node ++
      heldList s (k + exchangeCount node.nodes) (n + idCount node.nodes) rest

end

section

variable (s : StageId) (k n : Nat) (id : NodeId) (stage : StageId) (inputs : List PlanTree)

theorem held_exchange (distribution : Distribution) (keys : List String) :
    held s k n ⟨id, stage, .exchange distribution keys, inputs⟩ =
      (s, ⟨Id.ofNat n, s, .receive ⟨Id.ofNat k, distribution⟩, []⟩) ::
        (Id.ofNat k, (stageOver s k n distribution keys inputs).root) ::
        heldList (Id.ofNat k) (k + 1) (n + 2) inputs := by
  rw [held, kept_exchange]

theorem held_inner {operator : Operator} (h : operator.isExchange = false) :
    held s k n ⟨id, stage, operator, inputs⟩ =
      (s, ⟨Id.ofNat n, s, operator, keptList s k (n + 1) inputs⟩) ::
        heldList s k (n + 1) inputs := by
  rw [held, kept_inner _ _ _ _ _ _ h]
  rintro distribution keys rfl
  exact Bool.noConfusion h

end

/-- The nodes of some stages, each with the id of its stage. -/
def nodesOfStages (stages : List Stage) : List (StageId × PlanTree) :=
  stages.flatMap fun stage => stage.root.nodes.map (stage.id, ·)

/-- **The walk meets the nodes of all stages**: of the part that stays, and of those cut
off. -/
theorem held_perm :
    (∀ s k n tree, (held s k n tree).Perm
      ((kept s k n tree).nodes.map (s, ·) ++ nodesOfStages (opened s k n tree))) ∧
    ∀ s k n inputs, (heldList s k n inputs).Perm
      (((keptList s k n inputs).flatMap nodes).map (s, ·) ++
        nodesOfStages (openedList s k n inputs)) := by
  refine cutInduction (fun s k n id stage distribution keys inputs ih => ?_)
    (fun s k n id stage operator inputs h ih => ?_) (fun s k n => ?_)
    fun s k n node rest hnode hrest => ?_
  · rw [held_exchange, kept_exchange, opened_exchange, nodes_mk, nodesOfStages, List.flatMap_cons,
      stageOver, nodes_mk]
    exact (ih.cons _).cons _
  · rw [held_inner _ _ _ _ _ _ h, kept_inner _ _ _ _ _ _ h, opened_inner _ _ _ _ _ _ h, nodes_mk]
    exact ih.cons _
  · rw [heldList, keptList, openedList]
    exact .refl _
  · rw [heldList, keptList, openedList, nodesOfStages, List.flatMap_append, List.flatMap_cons,
      List.map_append]
    refine (hnode.append hrest).trans ?_
    -- the stages below the first tree move behind what is kept of the others
    rw [List.append_assoc, List.append_assoc]
    refine List.Perm.append_left _ ?_
    rw [← List.append_assoc, ← List.append_assoc]
    exact (List.perm_append_comm).append_right _

/-! ### Ids and holders -/

/-- **The nodes are numbered in the order of the walk.** -/
theorem map_id_held :
    (∀ s k n tree, (held s k n tree).map (·.2.id) =
      (List.range' n (idCount tree.nodes)).map Id.ofNat) ∧
    ∀ s k n inputs, (heldList s k n inputs).map (·.2.id) =
      (List.range' n (idCount (inputs.flatMap nodes))).map Id.ofNat := by
  refine cutInduction (fun s k n id stage distribution keys inputs ih => ?_)
    (fun s k n id stage operator inputs h ih => ?_) (fun s k n => ?_)
    fun s k n node rest hnode hrest => ?_
  · rw [held_exchange, idCount_exchange, List.range'_succ, List.range'_succ, List.map_cons,
      List.map_cons, ih]
    rfl
  · rw [held_inner _ _ _ _ _ _ h, idCount_inner _ _ _ h, List.range'_succ, List.map_cons, ih]
    rfl
  · rw [heldList]
    rfl
  · rw [heldList, List.map_append, hnode, hrest, List.flatMap_cons, idCount_append,
      ← List.map_append, List.range'_append_1]

/-- As long as there are enough numbers, those of the nodes of a query are consecutive along the
walk. -/
theorem numbers_held {root : PlanTree} (h : idCount root.collected.nodes ≤ 2 ^ 32) :
    (held rootStageId 1 0 root.collected).map (·.2.id.number.toNat) =
      List.range (held rootStageId 1 0 root.collected).length := by
  have hids := map_id_held.1 rootStageId 1 0 root.collected
  have hlength := congrArg List.length hids
  rw [List.length_map, List.length_map, List.length_range'] at hlength
  have hle : 0 + idCount root.collected.nodes ≤ 2 ^ 32 := by omega
  rw [hlength, List.range_eq_range', ← Id.map_toNat_map_ofNat hle, ← hids, List.map_map]
  rfl

/-- Every node says which stage holds it. -/
theorem stage_of_held :
    (∀ s k n tree, ∀ entry ∈ held s k n tree, entry.2.stage = entry.1) ∧
    ∀ s k n inputs, ∀ entry ∈ heldList s k n inputs, entry.2.stage = entry.1 := by
  refine cutInduction (fun s k n id stage distribution keys inputs ih => ?_)
    (fun s k n id stage operator inputs h ih => ?_) (fun s k n => ?_)
    fun s k n node rest hnode hrest => ?_
  · rw [held_exchange, List.forall_mem_cons, List.forall_mem_cons]
    exact ⟨rfl, rfl, ih⟩
  · rw [held_inner _ _ _ _ _ _ h, List.forall_mem_cons]
    exact ⟨rfl, ih⟩
  · rw [heldList]
    exact fun _ h => nomatch h
  · rw [heldList, List.forall_mem_append]
    exact ⟨hnode, hrest⟩

/-! ### What holds of the nodes -/

theorem length_keptList (s : StageId) (k n : Nat) (inputs : List PlanTree) :
    (keptList s k n inputs).length = inputs.length := by
  induction inputs generalizing k n with
  | nil => rw [keptList]
  | cons node rest ih => rw [keptList, List.length_cons, List.length_cons, ih]

/-- What cutting makes sure of for a node in a stage, `stages` being the stages cut
off. -/
structure HeldSound (stages : List Stage) (holder : StageId) (node : PlanTree) : Prop where
  /-- It has as many inputs as its operator takes. -/
  arity : node.operator.arity.admits node.inputs.length = true
  /-- It is not an exchange. -/
  cut : ∀ distribution keys, node.operator ≠ .exchange distribution keys
  /-- If it is a receive, then a stage that has been cut off sends to its holder. -/
  fed : ∀ receive, node.operator = .receive receive → Fed stages holder receive

theorem HeldSound.mono {stages stages' : List Stage} {holder : StageId} {node : PlanTree}
    (h : HeldSound stages holder node) (hsub : stages ⊆ stages') :
    HeldSound stages' holder node :=
  ⟨h.arity, h.cut, fun receive hreceive => (h.fed receive hreceive).mono hsub⟩

theorem forall_nodes_mk {P : PlanTree → Prop} {id : NodeId} {stage : StageId}
    {operator : Operator} {inputs : List PlanTree} :
    (∀ node ∈ nodes ⟨id, stage, operator, inputs⟩, P node) ↔
      P ⟨id, stage, operator, inputs⟩ ∧ ∀ node ∈ inputs.flatMap nodes, P node := by
  rw [nodes_mk, List.forall_mem_cons]

/-- **The nodes of a query that has been cut are sound.** -/
theorem held_sound :
    (∀ s k n tree, (∀ node ∈ tree.nodes, node.Cuttable) →
      ∀ entry ∈ held s k n tree, HeldSound (opened s k n tree) entry.1 entry.2) ∧
    ∀ s k n inputs, (∀ node ∈ inputs.flatMap nodes, node.Cuttable) →
      ∀ entry ∈ heldList s k n inputs, HeldSound (openedList s k n inputs) entry.1 entry.2 := by
  refine cutInduction (fun s k n id stage distribution keys inputs ih hcut => ?_)
    (fun s k n id stage operator inputs h ih hcut => ?_) (fun s k n _ => ?_)
    fun s k n node rest hnode hrest hcut => ?_
  · obtain ⟨hroot, hinputs⟩ := forall_nodes_mk.mp hcut
    rw [held_exchange, opened_exchange, List.forall_mem_cons, List.forall_mem_cons]
    refine ⟨⟨rfl, nofun, ?_⟩, ⟨?_, nofun, nofun⟩, fun entry hentry =>
      (ih hinputs entry hentry).mono (List.subset_cons_self _ _)⟩
    · rintro _ ⟨⟩
      exact ⟨_, List.mem_cons_self, rfl, keys, rfl⟩
    · rw [stageOver, length_keptList]
      exact hroot.arity
  · obtain ⟨hroot, hinputs⟩ := forall_nodes_mk.mp hcut
    rw [held_inner _ _ _ _ _ _ h, opened_inner _ _ _ _ _ _ h, List.forall_mem_cons]
    refine ⟨⟨?_, fun distribution keys hop => ?_, fun receive hop => ?_⟩, ih hinputs⟩
    · rw [length_keptList]
      exact hroot.arity
    · dsimp only at hop
      subst hop
      exact Bool.noConfusion h
    · exact absurd hop (hroot.ne_receive receive)
  · rw [heldList]
    exact fun _ h => nomatch h
  · rw [List.flatMap_cons, List.forall_mem_append] at hcut
    rw [heldList, openedList, List.forall_mem_append]
    exact ⟨fun entry hentry =>
        (hnode hcut.1 entry hentry).mono (List.subset_append_left _ _),
      fun entry hentry => (hrest hcut.2 entry hentry).mono (List.subset_append_right _ _)⟩

/-- No send is left in the part of a tree that stays. -/
theorem kept_not_send :
    (∀ s k n tree, (∀ node ∈ tree.nodes, node.Cuttable) →
      ∀ node ∈ (kept s k n tree).nodes, ∀ send, node.operator ≠ .send send) ∧
    ∀ s k n inputs, (∀ node ∈ inputs.flatMap nodes, node.Cuttable) →
      ∀ node ∈ (keptList s k n inputs).flatMap nodes, ∀ send, node.operator ≠ .send send := by
  refine cutInduction (fun s k n id stage distribution keys inputs ih hcut => ?_)
    (fun s k n id stage operator inputs h ih hcut => ?_) (fun s k n _ => ?_)
    fun s k n node rest hnode hrest hcut => ?_
  · rw [kept_exchange, forall_nodes_mk]
    refine ⟨?_, ?_⟩
    · rintro send ⟨⟩
    · rintro node ⟨⟩
  · obtain ⟨hroot, hinputs⟩ := forall_nodes_mk.mp hcut
    rw [kept_inner _ _ _ _ _ _ h, forall_nodes_mk]
    exact ⟨hroot.ne_send, ih hinputs⟩
  · rw [keptList]
    rintro node ⟨⟩
  · rw [List.flatMap_cons, List.forall_mem_append] at hcut
    rw [keptList, List.flatMap_cons, List.forall_mem_append]
    exact ⟨hnode hcut.1, hrest hcut.2⟩

/-- What holds of a stage that has been cut off, `entries` being the nodes of the
walk: its root is the only send in it, and is met there behind the one receive that it
feeds. -/
structure OpenedSound (entries : List (StageId × PlanTree)) (stage : Stage) : Prop where
  /-- Its root sends to the holder of a receive that names it. -/
  feeds : ∃ entry ∈ entries, ∃ distribution keys,
    entry.2.operator = .receive ⟨stage.id, distribution⟩ ∧
      stage.root.operator = .send ⟨[entry.1], distribution, keys⟩
  /-- No send lies below its root. -/
  unburied : ∀ node ∈ stage.root.inputs.flatMap nodes, ∀ send, node.operator ≠ .send send

theorem OpenedSound.mono {entries entries' : List (StageId × PlanTree)} {stage : Stage}
    (h : OpenedSound entries stage) (hsub : entries ⊆ entries') : OpenedSound entries' stage := by
  obtain ⟨⟨entry, hmem, hrest⟩, hunburied⟩ := h
  exact ⟨⟨entry, hsub hmem, hrest⟩, hunburied⟩

/-- **The stages that are cut off are sound.** -/
theorem opened_sound :
    (∀ s k n tree, (∀ node ∈ tree.nodes, node.Cuttable) →
      ∀ stage ∈ opened s k n tree, OpenedSound (held s k n tree) stage) ∧
    ∀ s k n inputs, (∀ node ∈ inputs.flatMap nodes, node.Cuttable) →
      ∀ stage ∈ openedList s k n inputs, OpenedSound (heldList s k n inputs) stage := by
  refine cutInduction (fun s k n id stage distribution keys inputs ih hcut => ?_)
    (fun s k n id stage operator inputs h ih hcut => ?_) (fun s k n _ => ?_)
    fun s k n node rest hnode hrest hcut => ?_
  · obtain ⟨-, hinputs⟩ := forall_nodes_mk.mp hcut
    rw [held_exchange, opened_exchange, List.forall_mem_cons]
    refine ⟨⟨⟨_, List.mem_cons_self, distribution, keys, rfl, rfl⟩,
      kept_not_send.2 _ _ _ _ hinputs⟩, fun stage hstage => ?_⟩
    exact (ih hinputs stage hstage).mono
      fun _ h => List.mem_cons_of_mem _ (List.mem_cons_of_mem _ h)
  · obtain ⟨-, hinputs⟩ := forall_nodes_mk.mp hcut
    rw [held_inner _ _ _ _ _ _ h, opened_inner _ _ _ _ _ _ h]
    exact fun stage hstage => (ih hinputs stage hstage).mono (List.subset_cons_self _ _)
  · rw [openedList]
    rintro stage ⟨⟩
  · rw [List.flatMap_cons, List.forall_mem_append] at hcut
    rw [heldList, openedList, List.forall_mem_append]
    exact ⟨fun stage hstage =>
        (hnode hcut.1 stage hstage).mono (List.subset_append_left _ _),
      fun stage hstage => (hrest hcut.2 stage hstage).mono (List.subset_append_right _ _)⟩

/-- **Every stage that is cut off depends on the one it is cut for**, along any relation
that has a holder depend on what its receives name. -/
theorem opened_reached {R : StageId → StageId → Prop} :
    (∀ s k n tree, (∀ entry ∈ held s k n tree, ∀ receive,
        entry.2.operator = .receive receive → R entry.1 receive.sender) →
      ∀ stage ∈ opened s k n tree, Relation.ReflTransGen R s stage.id) ∧
    ∀ s k n inputs, (∀ entry ∈ heldList s k n inputs, ∀ receive,
        entry.2.operator = .receive receive → R entry.1 receive.sender) →
      ∀ stage ∈ openedList s k n inputs, Relation.ReflTransGen R s stage.id := by
  refine cutInduction (fun s k n id stage distribution keys inputs ih hR => ?_)
    (fun s k n id stage operator inputs h ih hR => ?_) (fun s k n _ => ?_)
    fun s k n node rest hnode hrest hR => ?_
  · rw [held_exchange, List.forall_mem_cons, List.forall_mem_cons] at hR
    obtain ⟨hreceive, -, hinputs⟩ := hR
    have hstep : R s (Id.ofNat k) := hreceive _ rfl
    rw [opened_exchange, List.forall_mem_cons]
    exact ⟨.single hstep, fun stage hstage => (ih hinputs stage hstage).head hstep⟩
  · rw [held_inner _ _ _ _ _ _ h, List.forall_mem_cons] at hR
    rw [opened_inner _ _ _ _ _ _ h]
    exact ih hR.2
  · rw [openedList]
    rintro stage ⟨⟩
  · rw [heldList, List.forall_mem_append] at hR
    rw [openedList, List.forall_mem_append]
    exact ⟨hnode hR.1, hrest hR.2⟩

/-- **A receive names a stage with a higher number than its holder**, where the holder has
a number below those that are handed out. -/
theorem held_ascends :
    (∀ s k n tree, (∀ node ∈ tree.nodes, node.Cuttable) → ∀ m, s = Id.ofNat m → m < k →
      ∀ entry ∈ held s k n tree, ∀ receive, entry.2.operator = .receive receive →
        ∃ i j, entry.1 = Id.ofNat i ∧ receive.sender = Id.ofNat j ∧ i < j ∧
          j < k + exchangeCount tree.nodes) ∧
    ∀ s k n inputs, (∀ node ∈ inputs.flatMap nodes, node.Cuttable) → ∀ m, s = Id.ofNat m → m < k →
      ∀ entry ∈ heldList s k n inputs, ∀ receive, entry.2.operator = .receive receive →
        ∃ i j, entry.1 = Id.ofNat i ∧ receive.sender = Id.ofNat j ∧ i < j ∧
          j < k + exchangeCount (inputs.flatMap nodes) := by
  refine cutInduction (fun s k n id stage distribution keys inputs ih hcut m hm hlt => ?_)
    (fun s k n id stage operator inputs h ih hcut m hm hlt => ?_) (fun s k n _ _ _ _ => ?_)
    fun s k n node rest hnode hrest hcut m hm hlt => ?_
  · obtain ⟨-, hinputs⟩ := forall_nodes_mk.mp hcut
    rw [held_exchange, exchangeCount_exchange, List.forall_mem_cons, List.forall_mem_cons]
    refine ⟨?_, nofun, fun entry hentry receive hreceive => ?_⟩
    · rintro _ ⟨⟩
      exact ⟨m, k, hm, rfl, hlt, by omega⟩
    · obtain ⟨i, j, hi, hj, hij, hj'⟩ :=
        ih hinputs k rfl (Nat.lt_succ_self k) entry hentry receive hreceive
      exact ⟨i, j, hi, hj, hij, by omega⟩
  · obtain ⟨hroot, hinputs⟩ := forall_nodes_mk.mp hcut
    rw [held_inner _ _ _ _ _ _ h, exchangeCount_inner _ _ _ h, List.forall_mem_cons]
    exact ⟨fun receive hop => absurd hop (hroot.ne_receive receive), ih hinputs m hm hlt⟩
  · rw [heldList]
    exact fun _ h => nomatch h
  · rw [List.flatMap_cons, List.forall_mem_append] at hcut
    rw [heldList, List.flatMap_cons, exchangeCount_append, List.forall_mem_append]
    refine ⟨fun entry hentry receive hreceive => ?_, fun entry hentry receive hreceive => ?_⟩
    · obtain ⟨i, j, hi, hj, hij, hj'⟩ := hnode hcut.1 m hm hlt entry hentry receive hreceive
      exact ⟨i, j, hi, hj, hij, by omega⟩
    · obtain ⟨i, j, hi, hj, hij, hj'⟩ :=
        hrest hcut.2 m hm (by omega) entry hentry receive hreceive
      exact ⟨i, j, hi, hj, hij, by omega⟩

/-! ### The stages of a query -/

variable {root : PlanTree}

theorem cuttable_collected (h : ∀ node ∈ root.nodes, node.Cuttable) :
    ∀ node ∈ root.collected.nodes, node.Cuttable := by
  rw [nodes_collected, List.forall_mem_cons]
  exact ⟨⟨rfl, rfl⟩, h⟩

/-- The walk over a query meets the nodes of all its stages. -/
theorem held_collected_perm (root : PlanTree) :
    (held rootStageId 1 0 root.collected).Perm (nodesOfStages root.fragments) :=
  held_perm.1 _ _ _ _

theorem mem_nodesOfStages {stages : List Stage} {stage : Stage} {node : PlanTree}
    (hstage : stage ∈ stages) (hnode : node ∈ stage.root.nodes) :
    (stage.id, node) ∈ nodesOfStages stages :=
  List.mem_flatMap.mpr ⟨stage, hstage, List.mem_map_of_mem hnode⟩

/-- Every node of a stage of a query says that the stage holds it. -/
theorem stage_of_fragments : ∀ stage ∈ root.fragments, ∀ node ∈ stage.root.nodes,
    node.stage = stage.id := by
  intro stage hstage node hnode
  exact stage_of_held.1 _ _ _ _ _
    ((held_collected_perm root).mem_iff.mpr (mem_nodesOfStages hstage hnode))

/-- The nodes of the stages of a query are sound. -/
theorem fragments_sound (h : ∀ node ∈ root.nodes, node.Cuttable) :
    ∀ stage ∈ root.fragments, ∀ node ∈ stage.root.nodes,
      HeldSound root.fragments stage.id node := by
  intro stage hstage node hnode
  exact (held_sound.1 _ _ _ _ (cuttable_collected h) _
    ((held_collected_perm root).mem_iff.mpr (mem_nodesOfStages hstage hnode))).mono
    (List.subset_cons_self _ _)

/-- The ids of the nodes of all stages are distinct. -/
theorem nodup_id_nodesOfStages (fits : root.FitsIds) :
    ((nodesOfStages root.fragments).map (·.2.id)).Nodup := by
  rw [← ((held_collected_perm root).map (·.2.id)).nodup_iff, map_id_held.1, idCount_collected]
  refine Id.nodup_map_ofNat ?_
  rw [FitsIds] at fits
  omega

/-- The stages that have been cut off are fed and hold no send below their roots. -/
theorem openedSound_of_mem (h : ∀ node ∈ root.nodes, node.Cuttable) {stage : Stage}
    (hstage : stage ∈ opened rootStageId 1 0 root.collected) :
    OpenedSound (nodesOfStages root.fragments) stage :=
  (opened_sound.1 _ _ _ _ (cuttable_collected h) stage hstage).mono
    fun _ hentry => (held_collected_perm root).mem_iff.mp hentry

/-- What the root of a stage of a query sends to is one stage, which holds a receive for
it. -/
theorem send_of_fragments (h : ∀ node ∈ root.nodes, node.Cuttable) {stage : Stage}
    (hstage : stage ∈ root.fragments) {send : Send} (hsend : stage.root.operator = .send send) :
    ∃ holder ∈ root.fragments, send.receivers = [holder.id] ∧
      ∃ node ∈ holder.root.nodes, ∃ distribution,
        node.operator = .receive ⟨stage.id, distribution⟩ := by
  rcases mem_fragments.mp hstage with rfl | hopened
  · rw [root_arrival] at hsend
    exact nomatch hsend
  · obtain ⟨entry, hentry, distribution, keys, hreceive, hsends⟩ :=
      (openedSound_of_mem h hopened).feeds
    obtain ⟨holder, hholder, hmem⟩ := List.mem_flatMap.mp hentry
    obtain ⟨node, hnode, rfl⟩ := List.mem_map.mp hmem
    rw [hsends] at hsend
    cases hsend
    exact ⟨holder, hholder, rfl, node, hnode, distribution, hreceive⟩

/-- The stages that a stage of a query sends to are stages of the query. -/
theorem receivers_mem_fragments (h : ∀ node ∈ root.nodes, node.Cuttable) :
    ∀ stage ∈ root.fragments, ∀ receiver ∈ stage.receivers,
      receiver ∈ root.fragments.map (·.id) := by
  intro stage hstage receiver hreceiver
  rw [Stage.receivers] at hreceiver
  cases hop : stage.root.operator with
  | send send =>
    obtain ⟨holder, hholder, hreceivers, -⟩ := send_of_fragments h hstage hop
    rw [hop] at hreceiver
    change receiver ∈ send.receivers at hreceiver
    rw [hreceivers, List.mem_singleton] at hreceiver
    exact hreceiver ▸ List.mem_map_of_mem hholder
  | _ =>
    rw [hop] at hreceiver
    exact nomatch hreceiver

/-- A receive names another stage than the one that holds it. -/
theorem sender_ne_of_fragments (fits : root.FitsIds) (h : ∀ node ∈ root.nodes, node.Cuttable) :
    ∀ stage ∈ root.fragments, ∀ node ∈ stage.root.nodes, ∀ receive,
      node.operator = .receive receive → receive.sender ≠ stage.id := by
  intro stage hstage node hnode receive hreceive
  have hentry := (held_collected_perm root).mem_iff.mpr (mem_nodesOfStages hstage hnode)
  obtain ⟨i, j, hi, hj, hij, hlt⟩ := held_ascends.1 _ _ _ _ (cuttable_collected h) 0 rfl
    Nat.zero_lt_one _ hentry receive hreceive
  rw [exchangeCount_collected] at hlt
  rw [FitsIds] at fits
  dsimp only at hi
  rw [hi, hj, ne_eq, Id.ofNat_inj (by omega) (by omega)]
  omega

end PlanTree

end StagedQuery
