import StagedQuery.Proofs.Explain.Complete

/-!
# Which worker is explained

A node can be explained as any worker of its stage runs it. The worker is handed down from node to
node inside the stage and shows in each line there: in the place that the line names, in the
segments of a scan and in the targets of a send (`StagedQuery.LineDetail.Alike`). At a receive it
is dropped, since what is below is asked of the sending stage alone.

So two workers of one stage **agree**: the explanations of a node succeed for both or are halted
for both alike, and where they succeed they are drawn alike, line by line
(`StagedQuery.StageGraph.agree_outlineIn`). This is a statement about two runs, and its proof
follows both of them down the stage at once; below a receive the two are one run.
-/

namespace StagedQuery

/-! ### Lines side by side -/

namespace Outline

variable {R : OutlineLine → OutlineLine → Prop}

/-- **Two outlines are drawn alike**: their lines are related, one by one, and the same is drawn in
front of them. -/
def DrawnAlike (R : OutlineLine → OutlineLine → Prop) (outline outline' : Outline) : Prop :=
  ∀ first margin, List.Forall₂ (fun entry entry' => entry.1 = entry'.1 ∧ R entry.2 entry'.2)
    (outline.drawFrom first margin) (outline'.drawFrom first margin)

theorem DrawnAlike.refl (h : ∀ line, R line line) (outline : Outline) :
    outline.DrawnAlike R outline :=
  fun _ _ => List.forall₂_same.mpr fun entry _ => ⟨rfl, h entry.2⟩

/-- What is drawn in front of the lines of some outlines depends on how many outlines there are. -/
theorem forall₂_drawChildren {children children' : List Outline}
    (h : List.Forall₂ (DrawnAlike R) children children') (margin : String) :
    List.Forall₂ (fun entry entry' => entry.1 = entry'.1 ∧ R entry.2 entry'.2)
      (drawChildren margin children) (drawChildren margin children') := by
  induction h with
  | nil =>
    rw [drawChildren]
    exact .nil
  | @cons child child' rest rest' hchild hrest ih =>
    have hempty : rest.isEmpty = rest'.isEmpty := by cases hrest <;> rfl
    rw [drawChildren_cons, drawChildren_cons, hempty]
    exact List.rel_append (hchild _ _) ih

theorem DrawnAlike.mk {line line' : OutlineLine} {children children' : List Outline}
    (hline : R line line') (hchildren : List.Forall₂ (DrawnAlike R) children children') :
    DrawnAlike R ⟨line, children⟩ ⟨line', children'⟩ := by
  intro first margin
  rw [drawFrom_mk, drawFrom_mk]
  exact .cons ⟨rfl, hline⟩ (forall₂_drawChildren hchildren margin)

/-! ### Lines and line breaks -/

theorem splitOn_join {lines : List String} (h : ∀ line ∈ lines, '\n' ∉ line.toList) :
    (String.join (lines.map (· ++ "\n"))).toList.splitOn '\n' =
      lines.map (·.toList) ++ [[]] := by
  induction lines with
  | nil => rfl
  | cons line rest ih =>
    obtain ⟨hline, hrest⟩ := List.forall_mem_cons.mp h
    have hbreak : "\n".toList = ['\n'] := rfl
    rw [List.map_cons, String.join_cons, String.toList_append, String.toList_append, hbreak,
      List.append_assoc, List.singleton_append, List.splitOn_append_cons_self_of_not_mem hline,
      ih hrest, List.map_cons, List.cons_append]

/-- There is no line break in any line. -/
def Unbroken (outline : Outline) : Prop := ∀ entry ∈ outline.draw, '\n' ∉ (shown entry).toList

/-- **The text of an outline is split into its lines** at the line breaks, if there are no
others. -/
theorem splitOn_text {outline : Outline} (h : outline.Unbroken) :
    outline.text.toList.splitOn '\n' =
      outline.draw.map (fun entry => (shown entry).toList) ++ [[]] := by
  have hshown : ∀ line ∈ outline.draw.map shown, '\n' ∉ line.toList := List.forall_mem_map.mpr h
  have hsplit := splitOn_join hshown
  rw [List.map_map, List.map_map] at hsplit
  rw [text_eq]
  exact hsplit

end Outline

/-! ### What a line owes to the worker -/

/-- **Two details of one node**, as two workers run it, say the same but for the segments of a scan
and the targets of a send. -/
inductive LineDetail.Alike : Operator → LineDetail → LineDetail → Prop
  /-- Nothing is said. -/
  | plain (operator : Operator) : Alike operator .plain .plain
  /-- Each worker reads segments of its own. -/
  | segments (table : String) (columns names names' : List String) :
    Alike (.tableScan table columns) (.segments names) (.segments names')
  /-- Each worker sends to targets of its own, and both are followed. -/
  | sends (send : Send) (targets targets' : List (StageId × Mailbox)) :
    Alike (.send send) (.sends targets) (.sends targets')

namespace StageGraph

/-- **Two lines of an explanation for two workers of a stage** are the same, or they show one node
of the stage, each for its worker, with details that are alike. -/
inductive Twin (root : PlanTree) (destination destination' : Server × WorkerId) :
    OutlineLine → OutlineLine → Prop
  /-- The line does not depend on the worker. -/
  | same (line : OutlineLine) : Twin root destination destination' line line
  /-- The lines are those of the two workers. -/
  | apart {node : PlanTree} (inside : node ∈ root.nodes) {detail detail' : LineDetail}
    (alike : LineDetail.Alike node.operator detail detail') :
    Twin root destination destination' (lineOf node destination.1 destination.2 detail)
      (lineOf node destination'.1 destination'.2 detail')

variable {graph : StageGraph} {id : StageId} {planned : PlannedStage}

/-! ### Two workers of one stage -/

theorem alike_of_detailOf {worker worker' : WorkerId} {node : PlanTree}
    {detail detail' : LineDetail} (h : graph.detailOf worker node = .ok detail)
    (h' : graph.detailOf worker' node = .ok detail') :
    LineDetail.Alike node.operator detail detail' := by
  rw [detailOf] at h h'
  cases hop : node.operator with
  | tableScan table columns =>
    rw [hop] at h h'
    obtain ⟨names, -, ⟨⟩⟩ := bind_eq_ok.mp h
    obtain ⟨names', -, ⟨⟩⟩ := bind_eq_ok.mp h'
    exact .segments table columns names names'
  | send send =>
    rw [hop] at h h'
    obtain ⟨-, -, h⟩ := bind_eq_ok.mp h
    obtain ⟨targets, -, ⟨⟩⟩ := bind_eq_ok.mp h
    obtain ⟨-, -, h'⟩ := bind_eq_ok.mp h'
    obtain ⟨targets', -, ⟨⟩⟩ := bind_eq_ok.mp h'
    exact .sends send targets targets'
  | exchange distribution keys =>
    rw [hop] at h
    cases h
  | receive receive =>
    rw [hop] at h h'
    cases h
    cases h'
    exact .plain _
  | values rows =>
    rw [hop] at h h'
    cases h
    cases h'
    exact .plain _
  | explained title attributes =>
    rw [hop] at h h'
    cases h
    cases h'
    exact .plain _
  | _ =>
    rw [hop] at h h'
    obtain ⟨-, -, ⟨⟩⟩ := bind_eq_ok.mp h
    obtain ⟨-, -, ⟨⟩⟩ := bind_eq_ok.mp h'
    exact .plain _

/-- **Two workers of a stage agree** on each node of the stage, whatever is entered below its
receives. -/
theorem agree_outlineIn (sound : graph.StageSound id planned)
    (hplanned : graph.stages[id]? = some planned) {destination destination' : Server × WorkerId}
    (hmem : destination ∈ planned.assignment.destinations)
    (hmem' : destination' ∈ planned.assignment.destinations)
    (enter : Server → WorkerId → PlanTree → Except Halt Outline) {node : PlanTree}
    (hnode : node ∈ planned.stage.root.nodes) :
    Agree (Outline.DrawnAlike (Twin planned.stage.root destination destination'))
      (graph.outlineIn enter destination.1 destination.2 node)
      (graph.outlineIn enter destination'.1 destination'.2 node) := by
  induction node with
  | node nodeId stage operator inputs ih =>
    obtain ⟨detail, hdetail⟩ := sound.exists_detailOf hplanned hnode (sound.mem_workers hmem)
    obtain ⟨detail', hdetail'⟩ := sound.exists_detailOf hplanned hnode (sound.mem_workers hmem')
    have halike := alike_of_detailOf hdetail hdetail'
    suffices hbelow : Agree
        (List.Forall₂ (Outline.DrawnAlike (Twin planned.stage.root destination destination')))
        (graph.outlineBelow enter destination.1 destination.2
          ⟨nodeId, stage, operator, inputs⟩)
        (graph.outlineBelow enter destination'.1 destination'.2
          ⟨nodeId, stage, operator, inputs⟩) by
      rw [outlineIn_eq, outlineIn_eq, hdetail, hdetail']
      exact hbelow.bind fun children children' h => .ok (.mk (.apart hnode halike) h)
    rcases exists_or_forall_not (operator = .receive ·) with ⟨receive, rfl⟩ | hinner
    · -- what is below a receive is asked without the worker
      exact .refl (fun children => List.forall₂_same.mpr fun child _ => .refl .same child) _
    · have harity := (sound.nodes _ hnode).arity
      rw [outlineBelow_of_inner harity hinner, outlineBelow_of_inner harity hinner]
      refine Agree.mapM (R := fun input input' => input = input' ∧ input ∈ inputs)
        (List.forall₂_same.mpr fun input hinput => ⟨rfl, hinput⟩) ?_
      rintro input _ ⟨rfl, hinput⟩
      exact ih input hinput (PlanTree.input_mem_nodes hnode hinput)

/-- Lines that are twins differ in nothing else. -/
theorem Twin.alike (sound : graph.StageSound id planned) {destination destination' :
    Server × WorkerId} {line line' : OutlineLine}
    (h : Twin planned.stage.root destination destination' line line') :
    line.stage = line'.stage ∧ line.operator = line'.operator ∧
      (line.stage ≠ id → line = line') := by
  cases h with
  | same line => exact ⟨rfl, rfl, fun _ => rfl⟩
  | apart hinside halike => exact ⟨rfl, rfl, fun hne => absurd (sound.nodes _ hinside).held hne⟩

end StageGraph

/-! ### A plan -/

namespace DispatchPlan

/-- **Which worker is explained shows in the lines of its own stage only.** If a node can be
explained for one destination of its stage, then for any other one, too. The two explanations have
the same number of lines, and line by line the same is drawn in front, and the stage and the
operator are the same. Lines of other stages are equal. Lines of the stage itself are equal or
twins: they show one node, each for its worker, and differ in the segments of a scan and in the
targets of a send at most. The two texts are made of the lines, and the lines are what the texts are
split into at their line breaks, if nothing that is shown in a line has a line break in it. -/
theorem explainAs_twins (plan : DispatchPlan) (id : StageId) (planned : PlannedStage)
    (hplanned : plan.stages[id]? = some planned) (node : PlanTree)
    (hnode : node ∈ planned.stage.root.nodes) (destination destination' : Server × WorkerId)
    (hmem : destination ∈ planned.assignment.destinations)
    (hmem' : destination' ∈ planned.assignment.destinations) (text : String)
    (h : plan.explainAs node destination.1 destination.2 = .ok text) :
    ∃ outline outline' : Outline, text = outline.text ∧
      plan.explainAs node destination'.1 destination'.2 = .ok outline'.text ∧
      plan.outline plan.depthBound destination.1 destination.2 node = .ok outline ∧
      plan.outline plan.depthBound destination'.1 destination'.2 node = .ok outline' ∧
      outline.draw.length = outline'.draw.length ∧
      List.Forall₂ (fun entry entry' => entry.1 = entry'.1 ∧ entry.2.stage = entry'.2.stage ∧
          entry.2.operator = entry'.2.operator ∧ (entry.2.stage ≠ id → entry.2 = entry'.2) ∧
          (entry.2.stage = id →
            StageGraph.Twin planned.stage.root destination destination' entry.2 entry'.2))
        outline.draw outline'.draw ∧
      text = String.join (outline.draw.map fun entry => Outline.shown entry ++ "\n") ∧
      outline'.text = String.join (outline'.draw.map fun entry => Outline.shown entry ++ "\n") ∧
      (∀ entry ∈ outline.draw ++ outline'.draw, ∃ told, entry.2.Reads told) ∧
      (outline.Unbroken → text.toList.splitOn '\n' =
        outline.draw.map (fun entry => (Outline.shown entry).toList) ++ [[]]) ∧
      (outline'.Unbroken → outline'.text.toList.splitOn '\n' =
        outline'.draw.map (fun entry => (Outline.shown entry).toList) ++ [[]]) := by
  have sound := (plan.wellFormed_of_stage hplanned).stages id planned hplanned
  obtain ⟨outline, houtline, rfl⟩ := map_eq_ok.mp h
  have hagree := StageGraph.agree_outlineIn sound hplanned hmem hmem'
    (plan.entering plan.depthBound) hnode
  rw [← StageGraph.outline_eq, houtline] at hagree
  cases houtline' : plan.outline plan.depthBound destination'.1 destination'.2 node with
  | error halt =>
    rw [houtline'] at hagree
    exact nomatch hagree
  | ok outline' =>
    rw [houtline'] at hagree
    obtain ⟨hdrawn⟩ := hagree
    have hlines := hdrawn "" ""
    refine ⟨outline, outline', rfl, map_eq_ok.mpr ⟨outline', houtline', rfl⟩, houtline, rfl,
      hlines.length_eq, hlines.imp fun entry entry' ⟨hlead, htwin⟩ => ?_, outline.text_eq,
      outline'.text_eq, fun entry _ => ⟨_, entry.2.reads⟩, Outline.splitOn_text,
      Outline.splitOn_text⟩
    obtain ⟨hstage, hoperator, hother⟩ := htwin.alike sound
    exact ⟨hlead, hstage, hoperator, hother, fun _ => htwin⟩

/-- The stage that scans has a worker on each of two servers. Its send and the scan below it are
explained for both of them, in two lines each, and the texts differ. -/
theorem explainAs_twins_twoServers : ∃ (plan : DispatchPlan) (planned : PlannedStage)
    (near far : Server × WorkerId) (outline outline' : Outline),
    plan.stages[(Id.ofNat 2 : StageId)]? = some planned ∧
      planned.assignment.destinations = [near, far] ∧
      plan.explainAs planned.stage.root near.1 near.2 = .ok outline.text ∧
      plan.explainAs planned.stage.root far.1 far.2 = .ok outline'.text ∧
      outline.text ≠ outline'.text ∧ outline.draw.length = 2 ∧ outline'.draw.length = 2 := by
  let planner : Planner := ⟨.standard, rfl⟩
  let near : Server × WorkerId := (.onHost "host" 3 4, Id.ofNat 0)
  let far : Server × WorkerId := (.onHost "other" 3 4, Id.ofNat 1)
  have hsome : ((planner.plan Planner.filteredScan Planner.twoServers).toOption.any fun plan =>
      plan.stages[(Id.ofNat 2 : StageId)]?.any fun planned =>
        (plan.outline plan.depthBound near.1 near.2 planned.stage.root).toOption.any fun outline =>
          decide (planned.assignment.destinations = [near, far] ∧ outline.draw.length = 2 ∧
            plan.explainAs planned.stage.root far.1 far.2 ≠ .ok outline.text)) = true := by
    decide +kernel
  obtain ⟨plan, -, hsome⟩ := (Option.any_eq_true _ _).mp hsome
  obtain ⟨planned, hplanned, hsome⟩ := (Option.any_eq_true _ _).mp hsome
  obtain ⟨outline, houtline, hdecided⟩ := (Option.any_eq_true _ _).mp hsome
  obtain ⟨hdestinations, hlength, hdiffer⟩ := of_decide_eq_true hdecided
  have houtline := toOption_eq_some.mp houtline
  have hnear : near ∈ planned.assignment.destinations := hdestinations ▸ List.mem_cons_self
  have hfar : far ∈ planned.assignment.destinations :=
    hdestinations ▸ List.mem_cons_of_mem _ List.mem_cons_self
  have hexplain : plan.explainAs planned.stage.root near.1 near.2 = .ok outline.text :=
    map_eq_ok.mpr ⟨outline, houtline, rfl⟩
  obtain ⟨found, outline', htext, hexplain', hfound, -, hlengths, -⟩ :=
    explainAs_twins plan _ planned hplanned planned.stage.root planned.stage.root.self_mem_nodes
      near far hnear hfar outline.text hexplain
  obtain rfl : outline = found := Except.ok.inj (houtline.symm.trans hfound)
  refine ⟨plan, planned, near, far, outline, outline', hplanned, hdestinations, hexplain, hexplain',
    fun heq => ?_, hlength, hlengths.symm.trans hlength⟩
  rw [hexplain', ← heq] at hdiffer
  exact hdiffer rfl

end DispatchPlan

end StagedQuery
