import StagedQuery.Proofs.Dispatch.Built
import StagedQuery.Proofs.Explain.Wording

/-!
# A planned query is shown completely

Cutting numbers the nodes of a query in pre-order and goes on behind a receive with the stage
that feeds it; explaining draws them in pre-order and goes on behind a receive with the last
worker of that stage. Both walks are over the same query, and so they meet the same nodes in the
same order: the parts of the outline that are expanded are the outlines of the nodes in the
order of their numbers (`StagedQuery.StageGraph.traces_held`).

The induction is along the query as it is cut. What it carries is what an outline **traces**
(`StagedQuery.StageGraph.Traces`): which nodes its expanded parts show, and of which stages its
other lines stand for the workers that are not followed. At an exchange, which is a receive in
one stage and a send in the next, one border is crossed and one stage is added. At any other
node the inputs are traced one after the other, in the same stage and by the same worker.

The result of a query arrives at a receive that is cut like any other, so what holds of every
cut holds of the whole plan, and of the text that its outline is written out as
(`StagedQuery.Planner.explain_complete`).
-/

namespace StagedQuery

namespace StageGraph

variable {graph : StageGraph}

/-- How many workers of a stage are not followed: all but one. -/
def unfollowed (graph : StageGraph) (id : StageId) : Nat :=
  graph.stages[id]?.elim 0 fun planned => planned.assignment.size - 1

/-- The part is the outline of the node, as the worker that is followed in its stage runs it. -/
def Shows (graph : StageGraph) (borders : Nat) (node : PlanTree) (part : Outline) : Prop :=
  ∃ destination, graph.followed? node.stage = some destination ∧
    graph.outline borders destination.1 destination.2 node = .ok part

/-- **What the parts of an outline show**: the expanded ones show some nodes, one after the
other, and the others are as many as there are workers of some stages that are not followed. -/
structure Traces (graph : StageGraph) (borders : Nat) (nodes : List PlanTree)
    (stages : List Stage) (parts : List Outline) : Prop where
  /-- The expanded parts show the nodes. -/
  expanded : List.Forall₂ (graph.Shows borders) nodes (parts.filter (·.line.expanded))
  /-- The other parts are those of workers that are not followed. -/
  omitted : (parts.filter (!·.line.expanded)).length =
    (stages.map fun stage => graph.unfollowed stage.id).sum

namespace Traces

variable {borders borders' : Nat} {nodes nodes' : List PlanTree} {stages stages' : List Stage}
  {parts parts' : List Outline}

theorem nil : graph.Traces borders [] [] [] := ⟨.nil, rfl⟩

theorem append (h : graph.Traces borders nodes stages parts)
    (h' : graph.Traces borders nodes' stages' parts') :
    graph.Traces borders (nodes ++ nodes') (stages ++ stages') (parts ++ parts') := by
  refine ⟨?_, ?_⟩
  · rw [List.filter_append]
    exact List.rel_append h.expanded h'.expanded
  · rw [List.filter_append, List.length_append, h.omitted, h'.omitted, List.map_append,
      List.sum_append]

/-- One more node, shown by an expanded part in front of the others. -/
theorem cons {node : PlanTree} {part : Outline} (hshows : graph.Shows borders node part)
    (hexpanded : part.line.expanded = true) (h : graph.Traces borders nodes stages parts) :
    graph.Traces borders (node :: nodes) stages (part :: parts) := by
  have hkept : (part :: parts).filter (·.line.expanded) = part :: parts.filter (·.line.expanded) :=
    List.filter_cons_of_pos hexpanded
  have hleft : (part :: parts).filter (!·.line.expanded) = parts.filter (!·.line.expanded) :=
    List.filter_cons_of_neg (by rw [hexpanded]; decide)
  refine ⟨?_, ?_⟩
  · rw [hkept]
    exact .cons hshows h.expanded
  · rw [hleft]
    exact h.omitted

/-- One more stage, whose workers are shown in front of the others: all but one by a line. -/
theorem addStage {stage : Stage} {planned : PlannedStage} {omitted : List Outline}
    (hplanned : graph.stages[stage.id]? = some planned)
    (homitted : List.Forall₂ (Omits planned.stage.root)
      planned.assignment.destinations.dropLast omitted)
    (h : graph.Traces borders nodes stages parts) :
    graph.Traces borders nodes (stage :: stages) (omitted.flatMap Outline.parts ++ parts) := by
  have hparts : omitted.flatMap Outline.parts = omitted := by
    refine (List.flatMap_congr fun outline houtline => ?_).trans (List.flatMap_singleton' omitted)
    obtain ⟨destination, -, targets, rfl⟩ := item_of_result homitted outline houtline
    rw [Outline.parts_mk, List.flatMap_nil]
  have hnone : ∀ outline ∈ omitted, outline.line.expanded = false := by
    intro outline houtline
    obtain ⟨destination, -, targets, rfl⟩ := item_of_result homitted outline houtline
    rfl
  have hcount : graph.unfollowed stage.id = omitted.length := by
    rw [unfollowed, hplanned, ← homitted.length_eq, List.length_dropLast]
    rfl
  rw [hparts]
  refine ⟨?_, ?_⟩
  · rw [List.filter_append, List.filter_eq_nil_iff.mpr fun outline houtline => ?_, List.nil_append]
    · exact h.expanded
    · rw [hnone outline houtline]
      exact Bool.false_ne_true
  · rw [List.filter_append, List.filter_eq_self.mpr fun outline houtline => ?_,
      List.length_append, h.omitted, List.map_cons, List.sum_cons, hcount]
    rw [hnone outline houtline]
    rfl

theorem mono (hle : borders ≤ borders') (h : graph.Traces borders nodes stages parts) :
    graph.Traces borders' nodes stages parts := by
  refine ⟨h.expanded.imp fun node part hshows => ?_, h.omitted⟩
  obtain ⟨destination, hdestination, hpart⟩ := hshows
  exact ⟨destination, hdestination, outline_mono hle hpart⟩

end Traces

/-- The graph has the stages, each under its id. -/
def Has (graph : StageGraph) (stages : List Stage) : Prop :=
  ∀ stage ∈ stages, ∃ planned : PlannedStage,
    graph.stages[stage.id]? = some planned ∧ planned.stage = stage

/-- The node is shown by its outline, and the outlines below it trace what is below it. -/
theorem traces_of_below {borders : Nat} {destination : Server × WorkerId} {node : PlanTree}
    {outline : Outline} {nodes : List PlanTree} {stages : List Stage}
    (hfollowed : graph.followed? node.stage = some destination)
    (h : graph.outline borders destination.1 destination.2 node = .ok outline)
    (hbelow : ∀ children, graph.outlineBelow (graph.entering borders) destination.1 destination.2
      node = .ok children → graph.Traces borders nodes stages (children.flatMap Outline.parts)) :
    graph.Traces borders (node :: nodes) stages outline.parts := by
  have hshows : graph.Shows borders node outline := ⟨destination, hfollowed, h⟩
  rw [outline_eq] at h
  obtain ⟨detail, children, hdetail, hchildren, rfl⟩ := outlineIn_eq_ok.mp h
  rw [Outline.parts_mk]
  exact (hbelow children hchildren).cons hshows (expanded_lineOf hdetail)

open PlanTree in
/-- **The outline of what is kept of a query traces the query**: all nodes that it is cut into
and all stages that are cut off, where the graph has these stages. -/
theorem traces_held :
    (∀ s k n tree, (∀ node ∈ tree.nodes, node.Cuttable) → graph.Has (opened s k n tree) →
      ∀ borders destination outline, graph.followed? s = some destination →
        graph.outline borders destination.1 destination.2 (kept s k n tree) = .ok outline →
          graph.Traces borders ((held s k n tree).map (·.2)) (opened s k n tree) outline.parts) ∧
    ∀ s k n inputs, (∀ node ∈ inputs.flatMap PlanTree.nodes, node.Cuttable) →
      graph.Has (openedList s k n inputs) →
      ∀ borders destination outlines, graph.followed? s = some destination →
        (keptList s k n inputs).mapM (graph.outline borders destination.1 destination.2) =
          .ok outlines →
        graph.Traces borders ((heldList s k n inputs).map (·.2)) (openedList s k n inputs)
          (outlines.flatMap Outline.parts) := by
  refine cutInduction
    (fun s k n id stage distribution keys inputs ih hcut hhas borders destination outline hfollowed
      h => ?_)
    (fun s k n id stage operator inputs hex ih hcut hhas borders destination outline hfollowed
      h => ?_)
    (fun s k n _ _ borders destination outlines _ h => ?_)
    fun s k n node rest hnode hrest hcut hhas borders destination outlines hfollowed h => ?_
  · -- the receive, and behind it the send at the root of the stage that is opened
    obtain ⟨-, hinputs⟩ := forall_nodes_mk.mp hcut
    rw [opened_exchange] at hhas ⊢
    obtain ⟨⟨planned, hplanned, hstage⟩, hhas⟩ := List.forall_mem_cons.mp hhas
    rw [kept_exchange] at h
    rw [held_exchange, List.map_cons, List.map_cons]
    refine traces_of_below hfollowed h fun children hchildren => ?_
    obtain ⟨found, send, next, omitted, followed, hfound, -, hlast, homitted, henter, rfl⟩ :=
      outlineSenders_eq_ok.mp hchildren
    obtain rfl : found = planned := Option.some.inj (hfound.symm.trans hplanned)
    have hnext : graph.followed? (Id.ofNat k) = some next := by
      rw [followed?, hfound]
      exact hlast
    rw [List.flatMap_append, List.flatMap_singleton]
    refine Traces.addStage hplanned (omits_of_mapM homitted) ?_
    cases borders with
    | zero => exact nomatch henter
    | succ borders =>
      refine Traces.mono (Nat.le_succ borders) ?_
      rw [hstage] at henter
      refine traces_of_below hnext henter fun below hbelow => ?_
      refine ih hinputs hhas borders next below hnext ?_
      rw [outline_eq]
      exact hbelow
  · obtain ⟨hroot, hinputs⟩ := forall_nodes_mk.mp hcut
    rw [opened_inner _ _ _ _ _ _ hex] at hhas ⊢
    rw [kept_inner _ _ _ _ _ _ hex] at h
    rw [held_inner _ _ _ _ _ _ hex, List.map_cons]
    refine traces_of_below hfollowed h fun children hchildren => ?_
    refine ih hinputs hhas borders destination children hfollowed ?_
    have harity : operator.arity.admits (keptList s k (n + 1) inputs).length = true := by
      rw [length_keptList]
      exact hroot.arity
    have hreceive : ∀ receive, operator ≠ .receive receive := hroot.ne_receive
    rw [outline_eq, ← hchildren]
    refine Eq.symm (outlineBelow_of_inner ?_ ?_)
    · exact harity
    · exact hreceive
  · rw [keptList] at h
    cases h
    rw [heldList, openedList]
    exact .nil
  · rw [List.flatMap_cons, List.forall_mem_append] at hcut
    rw [openedList] at hhas ⊢
    obtain ⟨hfirst, hothers⟩ := List.forall_mem_append.mp hhas
    rw [keptList, List.mapM_cons] at h
    obtain ⟨outline, houtline, h⟩ := bind_eq_ok.mp h
    obtain ⟨others, hmore, h⟩ := bind_eq_ok.mp h
    cases h
    rw [heldList, List.map_append, List.flatMap_cons]
    exact (hnode hcut.1 hfirst borders destination outline hfollowed houtline).append
      (hrest hcut.2 hothers borders destination others hfollowed hmore)

/-- The outline of a whole graph is that of its root stage, as the one worker of it runs it. -/
theorem outlineRoot_eq_ok (hwf : graph.WellFormed) {borders : Nat} {outline : Outline}
    (h : graph.outlineRoot borders = .ok outline) :
    ∃ planned destination, graph.stages[graph.root]? = some planned ∧
      graph.followed? graph.root = some destination ∧
      graph.outline borders destination.1 destination.2 planned.stage.root = .ok outline := by
  obtain ⟨planned, hplanned, hsize⟩ := hwf.root
  obtain ⟨destination, hone⟩ := List.length_eq_one_iff.mp hsize
  have hfirst : graph.firstDestination = .ok destination :=
    bind_eq_ok.mpr ⟨planned, stage_eq_ok.mpr hplanned, by rw [hone]; rfl⟩
  have hfollowed : graph.followed? graph.root = some destination := by
    rw [followed?, hplanned]
    change planned.assignment.destinations.getLast? = _
    rw [hone]
    rfl
  obtain ⟨found, hfound, h⟩ := orHalt_bind_eq_ok.mp h
  obtain ⟨start, hstart, h⟩ := orHalt_bind_eq_ok.mp h
  obtain rfl : found = planned := Option.some.inj ((stage_eq_ok.mp hfound).symm.trans hplanned)
  obtain rfl : start = destination := Except.ok.inj (hstart.symm.trans hfirst)
  exact ⟨found, start, hplanned, hfollowed, h⟩

/-- The line shows the node as the worker that is followed in its stage runs it. -/
def ShowsNode (graph : StageGraph) (node : PlanTree) (line : OutlineLine) : Prop :=
  ∃ server worker detail, graph.followed? node.stage = some (server, worker) ∧
    graph.detailOf worker node = .ok detail ∧ line = lineOf node server worker detail

theorem ShowsNode.node_eq {node : PlanTree} {line : OutlineLine} (h : graph.ShowsNode node line) :
    line.node = node.id := by
  obtain ⟨server, worker, detail, -, -, rfl⟩ := h
  rfl

theorem Shows.showsNode {borders : Nat} {node : PlanTree} {part : Outline}
    (h : graph.Shows borders node part) : graph.ShowsNode node part.line := by
  obtain ⟨destination, hfollowed, h⟩ := h
  rw [outline_eq] at h
  obtain ⟨detail, children, hdetail, -, rfl⟩ := outlineIn_eq_ok.mp h
  exact ⟨destination.1, destination.2, detail, hfollowed, hdetail, rfl⟩

end StageGraph

/-! ### The plan of a query -/

namespace BuiltFrom

variable {root : PlanTree} {cluster : Cluster} {settings : Settings} {joined : List PlannedStage}

/-- **The outline of a plan traces the query** that it was made for. -/
theorem traces (h : BuiltFrom root cluster settings joined)
    (hwf : (StageGraph.ofJoined joined).WellFormed) {borders : Nat} {outline : Outline}
    (houtline : (StageGraph.ofJoined joined).outlineRoot borders = .ok outline) :
    (StageGraph.ofJoined joined).Traces borders
      ((PlanTree.held rootStageId 1 0 root.collected).map (·.2))
      (PlanTree.opened rootStageId 1 0 root.collected) outline.parts := by
  obtain ⟨planned, destination, hplanned, hfollowed, houtline⟩ :=
    StageGraph.outlineRoot_eq_ok hwf houtline
  obtain ⟨arrival, harrival, hstage⟩ :=
    h.exists_planned (List.mem_cons_self : root.arrival ∈ root.fragments)
  obtain rfl : planned = arrival := Option.some.inj (hplanned.symm.trans harrival)
  rw [hstage] at houtline
  refine StageGraph.traces_held.1 _ _ _ _ (PlanTree.cuttable_collected h.cuttable)
    (fun stage hopened => ?_) borders destination outline hfollowed houtline
  exact h.exists_planned (List.mem_cons_of_mem _ hopened)

/-- The walk over the query meets the nodes in the order of their numbers. -/
theorem numbers_held (h : BuiltFrom root cluster settings joined)
    (hwf : (StageGraph.ofJoined joined).WellFormed) :
    (PlanTree.held rootStageId 1 0 root.collected).map
        ((fun node : PlanTree => node.id.number.toNat) ∘ fun entry => entry.2) =
      List.range (PlanTree.held rootStageId 1 0 root.collected).length :=
  PlanTree.numbers_held (h.idCount_le hwf)

/-- The workers that are not followed, over all stages that were cut off. -/
theorem sum_unfollowed (h : BuiltFrom root cluster settings joined) :
    ((PlanTree.opened rootStageId 1 0 root.collected).map
        fun stage => (StageGraph.ofJoined joined).unfollowed stage.id).sum =
      (((StageGraph.ofJoined joined).stageList.filter fun planned =>
        planned.stage.id ≠ rootStageId).map fun planned => planned.assignment.size - 1).sum := by
  obtain ⟨first, others, rfl, hfirst, hothers⟩ := List.map_eq_cons_iff.mp h.stages
  have hroot : first.stage.id = rootStageId := congrArg Stage.id hfirst
  have hne : ∀ planned ∈ others, planned.stage.id ≠ rootStageId := by
    intro planned hplanned heq
    have hlt := (List.pairwise_cons.mp (h.fits.ascending h.stages)).1 planned hplanned
    exact ne_of_compare_lt hlt (hroot.trans heq.symm)
  have hfilter : (first :: others).filter (fun planned => planned.stage.id ≠ rootStageId) =
      others := by
    rw [List.filter_cons_of_neg (by simp [hroot])]
    exact List.filter_eq_self.mpr fun planned hplanned => decide_eq_true (hne planned hplanned)
  rw [h.fits.stageList_ofJoined h.stages, hfilter, ← hothers, List.map_map]
  refine congrArg List.sum (List.map_congr_left fun planned hplanned => ?_)
  have hfound := h.getElem?_eq_some.mpr ⟨List.mem_cons_of_mem first hplanned, rfl⟩
  dsimp only [Function.comp]
  rw [StageGraph.unfollowed, hfound]
  rfl

end BuiltFrom

namespace Planner

variable {planner : Planner} {root : PlanTree} {cluster : Cluster} {plan : DispatchPlan}

/-- **A plan that was made can be explained**, and its outline traces the query. -/
theorem exists_traces (h : planner.plan root cluster = .ok plan) :
    ∃ joined outline, BuiltFrom root cluster planner.settings joined ∧
      plan.toStageGraph = .ofJoined joined ∧ plan.WellFormed ∧
      plan.outlineRoot plan.depthBound = .ok outline ∧ plan.explain = .ok outline.text ∧
      plan.Traces plan.depthBound ((PlanTree.held rootStageId 1 0 root.collected).map (·.2))
        (PlanTree.opened rootStageId 1 0 root.collected) outline.parts := by
  obtain ⟨joined, hbuilt, hgraph, hwf⟩ := exists_built h
  have hacyclic : plan.Acyclic := by
    rw [hgraph]
    exact hbuilt.acyclic
  obtain ⟨outline, houtline⟩ := StageGraph.exists_outlineRoot hwf hacyclic
  obtain ⟨planned, hplanned, -⟩ := hwf.root
  have hempty : ¬plan.isEmpty = true :=
    mt StageGraph.isEmpty_eq_true.mp (StageGraph.stages_ne_empty hplanned)
  refine ⟨joined, outline, hbuilt, hgraph, hwf, houtline, ?_, ?_⟩
  · rw [DispatchPlan.explain, if_neg hempty]
    exact map_eq_ok.mpr ⟨outline, houtline, rfl⟩
  · change plan.outlineRoot plan.depthBound = .ok outline at houtline
    rw [hgraph] at hwf houtline ⊢
    exact hbuilt.traces hwf houtline

/-- **A planned query is shown completely and without repetition.** Its explanation succeeds
with a text made of lines, of which the expanded ones, read from top to bottom, are those of the
nodes with the numbers 0, 1, 2 and so on, up to the number of nodes of all stages. The other lines
are as many as there are workers of stages other than the root stage, without one for each of these
stages, and the mark at their end tells them from the expanded ones. -/
theorem explain_complete (planner : Planner) (root : PlanTree) (cluster : Cluster)
    (plan : DispatchPlan) (h : planner.plan root cluster = .ok plan) :
    ∃ outline nodes, plan.outlineRoot plan.depthBound = .ok outline ∧
      plan.explain = .ok outline.text ∧
      outline.text = String.join (outline.draw.map fun entry => Outline.shown entry ++ "\n") ∧
      (∀ entry ∈ outline.draw, ∃ told, entry.2.Reads told) ∧
      nodes.Perm plan.nodes ∧
      nodes.map (·.id.number.toNat) = List.range plan.nodes.length ∧
      List.Forall₂ plan.ShowsNode nodes ((outline.draw.map (·.2)).filter (·.expanded)) ∧
      ((outline.draw.map (·.2)).filter (!·.expanded)).length =
        ((plan.stageList.filter fun planned => planned.stage.id ≠ rootStageId).map
          fun planned => planned.assignment.size - 1).sum := by
  obtain ⟨joined, outline, hbuilt, hgraph, hwf, houtline, hexplain, htraces⟩ := exists_traces h
  rw [hgraph] at hwf houtline htraces ⊢
  refine ⟨outline, (PlanTree.held rootStageId 1 0 root.collected).map (·.2), houtline, hexplain,
    outline.text_eq, fun entry _ => ⟨_, entry.2.reads⟩, hbuilt.held_perm, ?_, ?_, ?_⟩
  · rw [List.map_map, ← hbuilt.held_perm.length_eq, List.length_map]
    exact hbuilt.numbers_held hwf
  · rw [Outline.map_snd_draw, List.filter_map]
    exact List.forall₂_map_right_iff.mpr (htraces.expanded.imp fun _ _ hshows => hshows.showsNode)
  · rw [Outline.map_snd_draw, List.filter_map, List.length_map, ← hbuilt.sum_unfollowed]
    exact htraces.omitted

/-- A cluster with two servers, each of which holds a segment of a table. -/
def twoServers : Cluster :=
  ((Cluster.ofServers (.onHost "broker" 1 2) [.onHost "host" 3 4, .onHost "other" 3 4]).place
    "t" "Server_host_3" ["s"]).place "t" "Server_other_3" ["u"]

/-- The lines of the explanation of `StagedQuery.Planner.filteredScan` on that cluster. The filter
and the scan have a worker on each of the two servers, and one worker of each is not followed. -/
def filteredScanLines : List String :=
  ["[0]@broker:1|[0] MAIL_RECEIVE(SINGLETON)",
    "├── [1]@host:3|[0] MAIL_SEND(SINGLETON)->\x7b[0]@broker:2|[0]\x7d (Subtree Omitted)",
    "└── [1]@other:3|[1] MAIL_SEND(SINGLETON)->\x7b[0]@broker:2|[0]\x7d",
    "    └── [1]@other:3|[1] FILTER",
    "        └── [1]@other:3|[1] MAIL_RECEIVE(RANDOM_DISTRIBUTED)",
    "            ├── [2]@host:3|[0] MAIL_SEND(RANDOM_DISTRIBUTED)" ++
      "->\x7b[1]@host:4|[0],[1]@other:4|[1]\x7d (Subtree Omitted)",
    "            └── [2]@other:3|[1] MAIL_SEND(RANDOM_DISTRIBUTED)" ++
      "->\x7b[1]@host:4|[0],[1]@other:4|[1]\x7d",
    "                └── [2]@other:3|[1] TABLE SCAN (t) [u]"]

/-- All six nodes of the plan are shown, and two lines stand for workers that are not followed. -/
theorem explain_complete_twoServers : ∃ (planner : Planner) (plan : DispatchPlan)
    (outline : Outline), planner.plan filteredScan twoServers = .ok plan ∧
      plan.explain = .ok outline.text ∧
      outline.text = String.join (outline.draw.map fun entry => Outline.shown entry ++ "\n") ∧
      outline.draw.map Outline.shown = filteredScanLines ∧
      (∀ entry ∈ outline.draw, ∃ told, entry.2.Reads told) ∧ plan.nodes.length = 6 ∧
      ((outline.draw.map (·.2)).filter (!·.expanded)).length = 2 := by
  let planner : Planner := ⟨.standard, rfl⟩
  have hsome : ((planner.plan filteredScan twoServers).toOption.any fun plan =>
      (plan.outlineRoot plan.depthBound).toOption.any fun outline =>
        decide (outline.draw.map Outline.shown = filteredScanLines ∧ plan.nodes.length = 6 ∧
          ((plan.stageList.filter fun planned => planned.stage.id ≠ rootStageId).map
            fun planned => planned.assignment.size - 1).sum = 2)) = true := by decide +kernel
  obtain ⟨plan, hplan, hsome⟩ := (Option.any_eq_true _ _).mp hsome
  obtain ⟨outline, houtline, hdecided⟩ := (Option.any_eq_true _ _).mp hsome
  obtain ⟨hlines, hnodes, hsum⟩ := of_decide_eq_true hdecided
  have hplan' := toOption_eq_some.mp hplan
  obtain ⟨other, -, hother, hexplain, htext, hreads, -, -, -, homitted⟩ :=
    explain_complete planner filteredScan twoServers plan hplan'
  obtain rfl : outline = other :=
    Except.ok.inj ((toOption_eq_some.mp houtline).symm.trans hother)
  exact ⟨planner, plan, outline, hplan', hexplain, htext, hlines, hreads, hnodes,
    homitted.trans hsum⟩

end Planner

end StagedQuery
