import StagedQuery.Proofs.Explain.Complete

/-!
# Every line names a worker of its stage

A line says of which stage its node is and which worker runs it. The stage is read off the node,
and the worker is handed down: it stays the same from a node to its inputs, and only at a receive
is it exchanged for those of the sending stage. That the two go together is nothing a single line
shows. It holds because a node of a sound stage carries the id of the stage, and so do its inputs,
and because the root that a receive leads to is that of the very stage whose workers are taken.
A part of an outline therefore comes from one of two places: it is the outline of a node for the
last destination of its stage, or it is the line of another destination of a stage that sends
(`StagedQuery.StageGraph.arises_of_outline`).

So each line of an explanation is one of a destination of its stage, and **where a stage is shown
in full, it is shown for the last of its destinations**
(`StagedQuery.StageGraph.RunsAsShown`). The others have a line each in front of it, wherever the
stage is received (`StagedQuery.StageGraph.ShowsWorkers`). No use is made of how the plan came
about: its stages may be received from many times, and its destinations may stand in any order.
-/

namespace StagedQuery

namespace StageGraph

variable {graph : StageGraph}

/-! ### What a line claims -/

/-- The outlines are those of the workers of a stage, in the order of its destinations: all but
the last are shown by the line of the stage's send alone, which says so, and the last in full. -/
structure ShowsWorkers (graph : StageGraph) (borders : Nat) (planned : PlannedStage)
    (outlines : List Outline) : Prop where
  /-- The root of the stage is a send. -/
  sends : ∃ send, planned.stage.root.operator = .send send
  /-- The workers in front of the last one have a line each. -/
  omitted : List.Forall₂ (Omits planned.stage.root)
    planned.assignment.destinations.dropLast outlines.dropLast
  /-- These lines say that something is left out. -/
  marked : ∀ part ∈ outlines.dropLast, ∃ front, part.line.text = front ++ " (Subtree Omitted)"
  /-- The last worker is followed. -/
  followed : ∃ part, outlines.getLast? = some part ∧ part.line.expanded = true ∧
    graph.Shows borders planned.stage.root part

/-- **A part of an outline runs as it is shown.** -/
structure RunsAsShown (graph : StageGraph) (borders : Nat) (part : Outline) : Prop where
  /-- The text of the line begins with the stage, the server and the worker that it names. -/
  reads : ∃ told, part.line.Reads told
  /-- The line is about a node of the stage that it names. -/
  placed : ∃ node ∈ graph.nodes, part.line.node = node.id ∧ part.line.stage = node.stage ∧
    part.line.operator = node.operator.text
  /-- The server and the worker are a destination of the stage. -/
  destined : ∃ planned, graph.stages[part.line.stage]? = some planned ∧
    (part.line.server, part.line.worker) ∈ planned.assignment.destinations
  /-- If the part is expanded, then they are the last one. -/
  last : part.line.expanded = true →
    graph.followed? part.line.stage = some (part.line.server, part.line.worker)
  /-- If the part is expanded and its node is a receive, then the workers of the sending stage are
  below it. -/
  received : part.line.expanded = true → ∀ node ∈ graph.nodes, node.id = part.line.node →
    ∀ receive, node.operator = .receive receive → ∃ planned,
      graph.stages[receive.sender]? = some planned ∧
        graph.ShowsWorkers borders planned part.children

/-- A line that stands for a subtree says so. -/
theorem Omits.marked {root : PlanTree} {destination : Server × WorkerId} {part : Outline}
    (h : Omits root destination part) :
    ∃ front, part.line.text = front ++ " (Subtree Omitted)" := by
  obtain ⟨targets, rfl⟩ := h
  let line := lineOf root destination.1 destination.2 (.omitted targets)
  refine ⟨line.place ++ " " ++ line.operator ++ targetsText targets, ?_⟩
  change line.place ++ " " ++ line.operator ++ (targetsText targets ++ " (Subtree Omitted)") = _
  exact String.append_assoc.symm

theorem followed?_eq_some {id : StageId} {destination : Server × WorkerId} :
    graph.followed? id = some destination ↔ ∃ planned, graph.stages[id]? = some planned ∧
      planned.assignment.destinations.getLast? = some destination :=
  Option.bind_eq_some_iff

/-! ### How a part comes about -/

/-- **Where a part of an outline comes from**, if at most `bound` borders are crossed. -/
inductive Arises (graph : StageGraph) (bound : Nat) : Outline → Prop
  /-- It is the outline of a node for the last destination of the node's stage. -/
  | shown {node : PlanTree} {part : Outline} (inside : node ∈ graph.nodes)
    (shows : graph.Shows bound node part) : Arises graph bound part
  /-- It is the line that stands for a worker of a sending stage which is not followed. -/
  | omitted {id : StageId} {planned : PlannedStage} {send : Send}
    {destination : Server × WorkerId} {part : Outline}
    (filed : graph.stages[id]? = some planned)
    (sends : planned.stage.root.operator = .send send)
    (placed : destination ∈ planned.assignment.destinations)
    (outlined : graph.omittedSend planned.stage.root send destination = .ok part) :
    Arises graph bound part

/-- What is entered at a receive could as well have been crossed to from the node itself. -/
theorem outline_of_entering {borders : Nat} {server : Server} {worker : WorkerId}
    {node : PlanTree} {outline : Outline}
    (h : graph.entering borders server worker node = .ok outline) :
    graph.outline borders server worker node = .ok outline := by
  cases borders with
  | zero => exact nomatch h
  | succ borders => exact outline_mono (Nat.le_succ borders) h

section

variable {id : StageId} {planned : PlannedStage} {destination : Server × WorkerId}

section

variable {borders bound : Nat}
  (henter : ∀ (id : StageId) (sender : PlannedStage) (last : Server × WorkerId)
    (followed : Outline), graph.stages[id]? = some sender →
    sender.assignment.destinations.getLast? = some last →
    graph.entering borders last.1 last.2 sender.stage.root = .ok followed →
      ∀ part ∈ followed.parts, graph.Arises bound part)

include henter

/-- **Below a receive** all parts arise, if those do that are entered. -/
theorem arises_of_outlineSenders {node : NodeId} {receive : Receive} {children : List Outline}
    (h : graph.outlineSenders (graph.entering borders) node id receive = .ok children) :
    ∀ child ∈ children, ∀ part ∈ child.parts, graph.Arises bound part := by
  obtain ⟨sender, send, last, omitted, followed, hsender, hfeeder, hlast, homitted, hfollowed,
    rfl⟩ := outlineSenders_eq_ok.mp h
  obtain ⟨-, -, -, hsend, -⟩ := feeder_eq_ok.mp hfeeder
  intro child hchild part hpart
  rcases List.mem_append.mp hchild with hchild | hchild
  · obtain ⟨destination, hmem, homit⟩ := item_of_result (mapM_eq_ok.mp homitted) child hchild
    -- nothing is drawn below the line of a worker that is not followed
    have hsame : part = child := by
      obtain ⟨targets, -, h⟩ := bind_eq_ok.mp homit
      rw [← pure_eq_ok.mp h] at hpart ⊢
      simpa [Outline.parts_mk] using hpart
    rw [hsame]
    exact .omitted hsender hsend (List.dropLast_subset _ hmem) homit
  · obtain rfl := List.mem_singleton.mp hchild
    exact henter _ sender last child hsender hlast hfollowed part hpart

/-- **Inside a stage** all parts arise, if those do that are entered at its receives. -/
theorem arises_of_entering (hwf : graph.WellFormed) (hle : borders ≤ bound)
    (hplanned : graph.stages[id]? = some planned)
    (hlast : planned.assignment.destinations.getLast? = some destination) {node : PlanTree}
    (hnode : node ∈ planned.stage.root.nodes) :
    ∀ outline, graph.outline borders destination.1 destination.2 node = .ok outline →
      ∀ part ∈ outline.parts, graph.Arises bound part := by
  induction node with
  | node nodeId stage operator inputs ih =>
    intro outline h
    have sound := (hwf.stages id planned hplanned).nodes _ hnode
    obtain rfl : stage = id := sound.held
    have hself : graph.Arises bound outline := by
      refine .shown (mem_nodes_of_stage hplanned hnode) ⟨destination, ?_, outline_mono hle h⟩
      exact followed?_eq_some.mpr ⟨planned, hplanned, hlast⟩
    rw [outline_eq] at h
    obtain ⟨detail, children, -, hchildren, rfl⟩ := outlineIn_eq_ok.mp h
    rw [Outline.parts_mk, List.forall_mem_cons]
    refine ⟨hself, fun part hbelow => ?_⟩
    obtain ⟨child, hchild, hpart⟩ := List.mem_flatMap.mp hbelow
    rcases exists_or_forall_not (operator = .receive ·) with ⟨receive, rfl⟩ | hinner
    · exact arises_of_outlineSenders henter hchildren child hchild part hpart
    · rw [outlineBelow_of_inner sound.arity hinner] at hchildren
      -- the same worker goes on to the inputs, which are nodes of the same stage
      obtain ⟨input, hinput, hout⟩ := item_of_result (mapM_eq_ok.mp hchildren) child hchild
      have hinside : input ∈ planned.stage.root.nodes := PlanTree.input_mem_nodes hnode hinput
      rw [← outline_eq] at hout
      exact ih input hinput hinside child hout part hpart

end

/-- **All parts of an outline arise**, if it is that of a node of a stage for the last of the
stage's destinations. -/
theorem arises_of_outline (hwf : graph.WellFormed) {borders bound : Nat} (hle : borders ≤ bound)
    (hplanned : graph.stages[id]? = some planned)
    (hlast : planned.assignment.destinations.getLast? = some destination) {node : PlanTree}
    (hnode : node ∈ planned.stage.root.nodes) {outline : Outline}
    (h : graph.outline borders destination.1 destination.2 node = .ok outline) :
    ∀ part ∈ outline.parts, graph.Arises bound part := by
  induction borders generalizing id planned destination node outline with
  | zero =>
    -- without a border to cross, nothing is drawn below a receive
    refine arises_of_entering (fun _ _ _ _ _ _ hentered => ?_) hwf hle hplanned hlast hnode
      outline h
    cases hentered
  | succ borders ih =>
    refine arises_of_entering (fun other sender last followed hsender hlast hentered => ?_) hwf hle
      hplanned hlast hnode outline h
    exact ih (Nat.le_of_succ_le hle) hsender hlast sender.stage.root.self_mem_nodes hentered

end

/-- All parts of the outline of a whole graph arise. -/
theorem arises_of_outlineRoot (hwf : graph.WellFormed) {borders : Nat} {outline : Outline}
    (h : graph.outlineRoot borders = .ok outline) :
    ∀ part ∈ outline.parts, graph.Arises borders part := by
  obtain ⟨root, destination, hroot, hfollowed, hout⟩ := outlineRoot_eq_ok hwf h
  obtain ⟨found, hfound, hlast⟩ := followed?_eq_some.mp hfollowed
  obtain rfl : root = found := Option.some.inj (hroot.symm.trans hfound)
  exact arises_of_outline hwf (Nat.le_refl _) hroot hlast root.stage.root.self_mem_nodes hout

/-! ### Who runs a part -/

/-- **What is below a receive**, where the workers that are followed are shown. -/
theorem showsWorkers_of_outlineSenders (hwf : graph.WellFormed) {bound : Nat} {node : NodeId}
    {id : StageId} {receive : Receive} {children : List Outline}
    (h : graph.outlineSenders (graph.entering bound) node id receive = .ok children) :
    ∃ sender, graph.stages[receive.sender]? = some sender ∧
      graph.ShowsWorkers bound sender children := by
  obtain ⟨sender, send, last, omitted, followed, hsender, hfeeder, hlast, homitted, hfollowed,
    rfl⟩ := outlineSenders_eq_ok.mp h
  obtain ⟨found, hfound, hroot, hsend, -⟩ := feeder_eq_ok.mp hfeeder
  have homits := omits_of_mapM homitted
  have hshows : graph.Shows bound sender.stage.root followed := by
    refine ⟨last, ?_, outline_of_entering hfollowed⟩
    rw [hwf.root_held hsender]
    exact followed?_eq_some.mpr ⟨sender, hsender, hlast⟩
  refine ⟨sender, hsender, ⟨send, hsend⟩, ?_, ?_, followed, by simp, ?_, hshows⟩
  · rwa [List.dropLast_concat]
  · rw [List.dropLast_concat]
    intro part hpart
    obtain ⟨destination, -, homit⟩ := item_of_result homits part hpart
    exact homit.marked
  · obtain ⟨server, worker, detail, -, hdetail, hline⟩ := hshows.showsNode
    rw [hline]
    exact expanded_lineOf hdetail

/-- **A part that arises runs as it is shown.** -/
theorem Arises.runsAsShown (hwf : graph.WellFormed) {bound : Nat} {part : Outline}
    (h : graph.Arises bound part) : graph.RunsAsShown bound part := by
  cases h with
  | @shown node _ hmem hshows =>
    obtain ⟨destination, hfollowed, h⟩ := hshows
    obtain ⟨planned, hplanned, hlast⟩ := followed?_eq_some.mp hfollowed
    rw [outline_eq] at h
    obtain ⟨detail, children, -, hchildren, rfl⟩ := outlineIn_eq_ok.mp h
    refine ⟨⟨_, OutlineLine.reads _⟩, ⟨node, hmem, rfl, rfl, rfl⟩,
      ⟨planned, hplanned, List.mem_of_getLast? hlast⟩, fun _ => hfollowed,
      fun _ other hother hid receive hreceive => ?_⟩
    -- there is one node with the id of the line
    obtain rfl : other = node := hwf.eq_of_id_eq hother hmem hid
    rw [outlineBelow, hreceive] at hchildren
    exact showsWorkers_of_outlineSenders hwf hchildren
  | @omitted id planned send destination _ hplanned hsend hmem houtlined =>
    obtain ⟨targets, -, h⟩ := bind_eq_ok.mp houtlined
    obtain rfl := pure_eq_ok.mp h
    have hroot := planned.stage.root.self_mem_nodes
    obtain rfl := hwf.root_held hplanned
    let line := lineOf planned.stage.root destination.1 destination.2 (.omitted targets)
    have hfolded : ¬line.expanded = true := Bool.false_ne_true
    exact ⟨⟨_, line.reads⟩,
      ⟨planned.stage.root, mem_nodes_of_stage hplanned hroot, rfl, rfl, rfl⟩,
      ⟨planned, hplanned, hmem⟩, fun h => absurd h hfolded, fun h => absurd h hfolded⟩

end StageGraph

/-! ### A plan -/

namespace DispatchPlan

/-- **Every line of an explanation runs as it is shown.** If a plan can be explained, then either
it has no stages, or its text is made of the lines of an outline, one for each part. Every line
names its stage, and the server and the worker of a destination of it. Those of an expanded line
are the last destination, and below an expanded receive are the workers of the sending stage. -/
theorem explain_runsAsShown (plan : DispatchPlan) (text : String) (h : plan.explain = .ok text) :
    (plan.stages = ∅ ∧ text = emptyText) ∨
      ∃ outline, plan.outlineRoot plan.depthBound = .ok outline ∧ text = outline.text ∧
        text = String.join (outline.draw.map fun entry => Outline.shown entry ++ "\n") ∧
        outline.draw.map (·.2) = outline.parts.map (·.line) ∧
        ∀ part ∈ outline.parts, plan.RunsAsShown plan.depthBound part := by
  rw [explain] at h
  rcases plan.wellFormed with hempty | hwf
  · rw [if_pos (StageGraph.isEmpty_eq_true.mpr hempty)] at h
    exact .inl ⟨hempty, (Except.ok.inj h).symm⟩
  · obtain ⟨planned, hplanned, -⟩ := hwf.root
    rw [if_neg (mt StageGraph.isEmpty_eq_true.mp (StageGraph.stages_ne_empty hplanned))] at h
    obtain ⟨outline, houtline, rfl⟩ := map_eq_ok.mp h
    exact .inr ⟨outline, houtline, rfl, outline.text_eq, outline.map_snd_draw,
      fun part hpart => (StageGraph.arises_of_outlineRoot hwf houtline part hpart).runsAsShown hwf⟩

/-- The plan of a scan on two servers can be explained, and so its lines run as they are shown. -/
theorem explain_runsAsShown_twoServers : ∃ (plan : DispatchPlan) (outline : Outline),
    plan.explain = .ok outline.text ∧ plan.stages ≠ ∅ ∧
      outline.text = String.join (outline.draw.map fun entry => Outline.shown entry ++ "\n") ∧
      outline.draw.map (·.2) = outline.parts.map (·.line) ∧
      ∀ part ∈ outline.parts, plan.RunsAsShown plan.depthBound part := by
  let planner : Planner := ⟨.standard, rfl⟩
  have hsome : (planner.plan Planner.filteredScan Planner.twoServers).toOption.isSome = true := by
    decide +kernel
  obtain ⟨plan, hplan⟩ := Option.isSome_iff_exists.mp hsome
  obtain ⟨joined, outline, -, -, hwf, houtline, hexplain, -⟩ :=
    Planner.exists_traces (toOption_eq_some.mp hplan)
  obtain ⟨planned, hplanned, -⟩ := hwf.root
  have hne := StageGraph.stages_ne_empty hplanned
  rcases explain_runsAsShown plan outline.text hexplain with ⟨hempty, -⟩ | hshown
  · exact absurd hempty hne
  · obtain ⟨outline', houtline', -, htext, hlines, hparts⟩ := hshown
    obtain rfl : outline = outline' := Except.ok.inj (houtline.symm.trans houtline')
    exact ⟨plan, outline, hexplain, hne, htext, hlines, hparts⟩

end DispatchPlan

end StagedQuery
