import StagedQuery.Proofs.Assignment.Ascending
import StagedQuery.Proofs.Explain.Complete

/-!
# A part explained is the part of the whole

Explaining a node by itself and explaining the whole plan come to a node in two ways. The one
asks for the last worker that a server runs for the stage of the node; the other follows the
last destination of the stage. In a plan that was made the servers of an assignment ascend, so
the last destination is the last worker of its server, and for that server the two agree on the
worker (`StagedQuery.Planner.lastWorkerOn_eq_ok`).

The outline of the node is then one of the parts of the outline of the whole plan, since the
latter shows every node of the plan. A part is drawn in one piece, so the explanation of the
node is a block of the explanation of the plan, without what is drawn in front of the block
(`StagedQuery.Planner.explainOn_block`).
-/

namespace StagedQuery

namespace Planner

variable {planner : Planner} {root : PlanTree} {cluster : Cluster} {plan : DispatchPlan}
  {id : StageId} {planned : PlannedStage}

/-- **For the server of the last destination**, the worker that is explained is that of the last
destination. -/
theorem lastWorkerOn_eq_ok (h : planner.plan root cluster = .ok plan)
    (hplanned : plan.stages[id]? = some planned) {server : Server} {worker : WorkerId}
    (hlast : planned.assignment.destinations.getLast? = some (server, worker)) :
    plan.lastWorkerOn id server = .ok worker := by
  have hascend := Stage.ascend_of_place (place_of_plan h hplanned)
  rw [StageGraph.lastWorkerOn]
  refine bind_eq_ok.mpr ⟨planned, StageGraph.stage_eq_ok.mpr hplanned, ?_⟩
  rw [hascend.last_hosted hlast]

/-- Every node of a plan that was made is shown by some part of the outline. -/
theorem exists_part {whole : Outline} {nodes : List PlanTree} {stages : List Stage}
    (htraces : plan.Traces plan.depthBound nodes stages whole.parts) {node : PlanTree}
    (hnode : node ∈ nodes) :
    ∃ part ∈ whole.parts, part.line.expanded = true ∧ plan.Shows plan.depthBound node part := by
  obtain ⟨part, hpart, hshows⟩ := result_of_item htraces.expanded node hnode
  obtain ⟨hmem, hexpanded⟩ := List.mem_filter.mp hpart
  exact ⟨part, hmem, hexpanded, hshows⟩

/-- The expanded lines are those of different nodes. -/
theorem nodup_expanded {whole : Outline} {nodes : List PlanTree} {stages : List Stage}
    (htraces : plan.Traces plan.depthBound nodes stages whole.parts)
    (hnodup : (nodes.map (·.id)).Nodup) :
    (((whole.draw.map (·.2)).filter (·.expanded)).map (·.node)).Nodup := by
  rw [Outline.map_snd_draw, List.filter_map, List.map_map]
  have hids : nodes.map (·.id) = (whole.parts.filter (·.line.expanded)).map (·.line.node) := by
    refine List.forall₂_eq_eq_eq ▸ List.forall₂_map_left_iff.mpr (List.forall₂_map_right_iff.mpr ?_)
    exact htraces.expanded.imp fun node part hshows => hshows.showsNode.node_eq.symm
  rw [hids] at hnodup
  exact hnodup

/-- **Explaining a node of a planned query** for the server of the last destination of its
stage gives the block of the whole explanation that begins with the one expanded line of the
node, without what is drawn in front of it. The text is that of the lines of the block, each without
its first `4 * depth` characters. -/
theorem explainOn_block (planner : Planner) (root : PlanTree) (cluster : Cluster)
    (plan : DispatchPlan) (h : planner.plan root cluster = .ok plan) (id : StageId)
    (planned : PlannedStage) (hplanned : plan.stages[id]? = some planned) (node : PlanTree)
    (hnode : node ∈ planned.stage.root.nodes) (server : Server) (worker : WorkerId)
    (hlast : planned.assignment.destinations.getLast? = some (server, worker)) :
    ∃ (whole part : Outline) (depth : Nat) (first : String × OutlineLine)
      (before below after : List (String × OutlineLine)),
      plan.outlineRoot plan.depthBound = .ok whole ∧ plan.explain = .ok whole.text ∧
      plan.explainOn node server = .ok part.text ∧
      whole.text = String.join
        ((before ++ first :: below ++ after).map fun entry => Outline.shown entry ++ "\n") ∧
      part.text = String.join ((first :: below).map fun entry =>
        Outline.dropChars (4 * depth) (Outline.shown entry) ++ "\n") ∧
      (∀ entry ∈ whole.draw, ∃ told, entry.2.Reads told) ∧
      part.DrawnAs whole depth before first below after ∧
      first.2.expanded = true ∧ plan.ShowsNode node first.2 ∧
      ∀ entry ∈ before ++ (below ++ after), entry.2.expanded = true → entry.2.node ≠ node.id := by
  obtain ⟨joined, whole, hbuilt, hgraph, hwf, hwhole, hexplain, htraces⟩ := exists_traces h
  have hheld : node.stage = id := ((hwf.stages id planned hplanned).nodes node hnode).held
  have hperm : ((PlanTree.held rootStageId 1 0 root.collected).map (·.2)).Perm plan.nodes := by
    rw [hgraph]
    exact hbuilt.held_perm
  obtain ⟨part, hpart, hexpanded, hshows⟩ := exists_part htraces
    (hperm.mem_iff.mpr (StageGraph.mem_nodes_of_stage hplanned hnode))
  -- the part is the outline that is drawn for the node alone
  have hexplainOn : plan.explainOn node server = .ok part.text := by
    obtain ⟨destination, hfollowed, hout⟩ := hshows
    rw [StageGraph.followed?, hheld, hplanned] at hfollowed
    obtain rfl : (server, worker) = destination := Option.some.inj (hlast.symm.trans hfollowed)
    rw [DispatchPlan.explainOn, hheld]
    exact orHalt_bind_eq_ok.mpr ⟨worker, lastWorkerOn_eq_ok h hplanned hlast,
      map_eq_ok.mpr ⟨part, hout, rfl⟩⟩
  obtain ⟨depth, before, first, below, after, hdrawn⟩ := Outline.exists_drawnAs hpart
  rw [← hdrawn.line] at hexpanded
  have hshowsNode : plan.ShowsNode node first.2 := hdrawn.line ▸ hshows.showsNode
  refine ⟨whole, part, depth, first, before, below, after, hwhole, hexplain, hexplainOn,
    hdrawn.piece ▸ whole.text_eq, hdrawn.text_eq, fun entry _ => ⟨_, entry.2.reads⟩, hdrawn,
    hexpanded, hshowsNode, fun entry hentry hshown heq => ?_⟩
  -- the line would be drawn a second time
  have hnodup := nodup_expanded htraces ((hperm.map (·.id)).nodup_iff.mpr hwf.distinct)
  have hdraw : whole.draw.Perm (first :: (before ++ (below ++ after))) := by
    rw [hdrawn.piece, List.append_assoc, List.cons_append]
    exact List.perm_middle
  rw [(((hdraw.map _).filter _).map _).nodup_iff, List.map_cons,
    List.filter_cons_of_pos hexpanded, List.map_cons, List.nodup_cons, hshowsNode.node_eq,
    ← heq] at hnodup
  exact hnodup.1 (List.mem_map_of_mem (List.mem_filter.mpr ⟨List.mem_map_of_mem hentry, hshown⟩))

/-- The stage that scans has a worker on each of two servers. For the last of them it is explained
by the last two lines of the whole, each without its first sixteen characters. -/
theorem explainOn_block_twoServers : ∃ (planner : Planner) (plan : DispatchPlan)
    (planned : PlannedStage) (whole part : Outline) (depth : Nat)
    (first : String × OutlineLine) (before below after : List (String × OutlineLine)),
    planner.plan filteredScan twoServers = .ok plan ∧
      plan.stages[(Id.ofNat 2 : StageId)]? = some planned ∧ planned.assignment.size = 2 ∧
      plan.explain = .ok whole.text ∧
      plan.explainOn planned.stage.root (.onHost "other" 3 4) = .ok part.text ∧
      whole.text = String.join
        ((before ++ first :: below ++ after).map fun entry => Outline.shown entry ++ "\n") ∧
      part.text = String.join ((first :: below).map fun entry =>
        Outline.dropChars (4 * depth) (Outline.shown entry) ++ "\n") ∧
      part.text = String.join ((filteredScanLines.drop 6).map fun line =>
        Outline.dropChars 16 line ++ "\n") ∧
      part.DrawnAs whole depth before first below after := by
  let planner : Planner := ⟨.standard, rfl⟩
  let server : Server := .onHost "other" 3 4
  have hsome : ((planner.plan filteredScan twoServers).toOption.any fun plan =>
      plan.stages[(Id.ofNat 2 : StageId)]?.any fun planned =>
        decide (planned.assignment.size = 2 ∧
          planned.assignment.destinations.getLast? = some (server, Id.ofNat 1) ∧
          plan.explainOn planned.stage.root server = .ok (String.join
            ((filteredScanLines.drop 6).map fun line => Outline.dropChars 16 line ++ "\n")))) =
      true := by decide +kernel
  obtain ⟨plan, hplan, hsome⟩ := (Option.any_eq_true _ _).mp hsome
  obtain ⟨planned, hplanned, hdecided⟩ := (Option.any_eq_true _ _).mp hsome
  obtain ⟨hsize, hlast, hlines⟩ := of_decide_eq_true hdecided
  have hplan := toOption_eq_some.mp hplan
  obtain ⟨whole, part, depth, first, before, below, after, -, hexplain, hexplainOn, hwholeText,
    hpartText, -, hdrawn, -⟩ := explainOn_block planner filteredScan twoServers plan hplan _
      planned hplanned planned.stage.root planned.stage.root.self_mem_nodes server _ hlast
  exact ⟨planner, plan, planned, whole, part, depth, first, before, below, after, hplan, hplanned,
    hsize, hexplain, hexplainOn, hwholeText, hpartText,
    Except.ok.inj (hexplainOn.symm.trans hlines), hdrawn⟩

end Planner

end StagedQuery
