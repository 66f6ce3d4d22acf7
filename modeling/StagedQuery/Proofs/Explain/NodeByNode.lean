import StagedQuery.Explain.Physical
import StagedQuery.Proofs.Dispatch.WellFormed
import StagedQuery.Proofs.Explain.Drawing

/-!
# Explaining node by node

Whatever its operator, a node is explained in the same three moves: its line is made
(`StagedQuery.StageGraph.detailOf`), what is below it is explained
(`StagedQuery.StageGraph.outlineBelow`), and the two are put together
(`StagedQuery.StageGraph.outlineIn_eq`). What is below a receive are the workers of the
sending stage. All but the last of them are shown by a line that stands for the whole subtree,
and the last is followed (`StagedQuery.StageGraph.outlineSenders_eq_ok`).

A line that stands for a whole subtree is never that of a node which is explained, so whether a
line is **expanded** can be seen from its detail (`StagedQuery.OutlineLine.expanded`).

**The bound on borders plays no part** where it is not run into: a larger bound gives the same
outline (`StagedQuery.StageGraph.outline_mono`).
-/

namespace StagedQuery

/-- Whether a line is that of a node which is explained, and does not stand for a subtree that
is left out. -/
def OutlineLine.expanded (line : OutlineLine) : Bool :=
  match line.detail with
  | .omitted _ => false
  | _ => true

/-- A fault at a step is what it is of the whole; an answer is followed by the next step. -/
theorem orHalt_bind_eq_ok {α β : Type} {x : Except PlanError α} {f : α → Except Halt β} {b : β} :
    (orHalt x >>= f) = .ok b ↔ ∃ a, x = .ok a ∧ f a = .ok b := by
  cases x with
  | ok a => exact ⟨fun h => ⟨a, rfl, h⟩, fun ⟨_, ha, h⟩ => Except.ok.inj ha ▸ h⟩
  | error fault => exact ⟨nofun, fun ⟨_, ha, _⟩ => nomatch ha⟩

namespace StageGraph

variable (graph : StageGraph)

/-! ### One node -/

/-- What the line of a node says beyond its operator, if the node has the inputs that are asked
for. -/
def detailOf (worker : WorkerId) (node : PlanTree) : Except PlanError LineDetail :=
  match node.operator with
  | .tableScan .. => do return .segments (← graph.segmentNames node.stage worker)
  | .values _ | .explained .. | .receive _ => .ok .plain
  | .send send => do
    let _ ← node.onlyInput
    return .sends (← graph.sendTargets node.stage send worker)
  | .join .. | .setOperation .. => do
    node.checkInputCount
    return .plain
  | .exchange .. => .error node.crossing
  | .filter _ | .project _ | .aggregate .. | .window .. | .sort .. => do
    let _ ← node.onlyInput
    return .plain

/-- The outlines below a node: those of its inputs or, at a receive, of the sending stage's
workers. -/
def outlineBelow (enter : Server → WorkerId → PlanTree → Except Halt Outline) (server : Server)
    (worker : WorkerId) (node : PlanTree) : Except Halt (List Outline) :=
  match node.operator with
  | .tableScan .. | .values _ | .explained .. => .ok []
  | .receive receive => graph.outlineSenders enter node.id node.stage receive
  | _ => node.inputs.mapM (graph.outlineIn enter server worker)

variable {graph} {enter enter' : Server → WorkerId → PlanTree → Except Halt Outline}
  {server : Server} {worker : WorkerId}

theorem outlineInputs_eq (inputs : List PlanTree) :
    graph.outlineInputs enter server worker inputs =
      inputs.mapM (graph.outlineIn enter server worker) := by
  induction inputs with
  | nil =>
    rw [outlineInputs]
    rfl
  | cons input rest ih => rw [outlineInputs, ih, List.mapM_cons]

/-- **A node is explained** by its line and what is below it, whatever its operator. -/
theorem outlineIn_eq (node : PlanTree) :
    graph.outlineIn enter server worker node =
      orHalt (graph.detailOf worker node) >>= fun detail =>
        graph.outlineBelow enter server worker node >>= fun children =>
          pure ⟨lineOf node server worker detail, children⟩ := by
  obtain ⟨id, stage, operator, inputs⟩ := node
  cases operator with
  | tableScan table columns =>
    rw [outlineIn, detailOf]
    cases graph.segmentNames stage worker <;> rfl
  | send send =>
    rw [outlineIn, detailOf, outlineInputs_eq]
    dsimp only
    cases PlanTree.onlyInput ⟨id, stage, .send send, inputs⟩ with
    | error fault => rfl
    | ok input => cases graph.sendTargets stage send worker <;> rfl
  | receive receive => rw [outlineIn]; rfl
  | values rows => rw [outlineIn]; rfl
  | explained title attributes => rw [outlineIn]; rfl
  | exchange distribution keys => rw [outlineIn]; rfl
  | join type on =>
    rw [outlineIn, detailOf, outlineInputs_eq]
    cases PlanTree.checkInputCount ⟨id, stage, .join type on, inputs⟩ <;> rfl
  | setOperation operation all =>
    rw [outlineIn, detailOf, outlineInputs_eq]
    cases PlanTree.checkInputCount ⟨id, stage, .setOperation operation all, inputs⟩ <;> rfl
  | _ =>
    rw [outlineIn, detailOf, outlineInputs_eq]
    cases PlanTree.onlyInput ⟨id, stage, _, inputs⟩ <;> rfl

theorem outlineIn_eq_ok {node : PlanTree} {outline : Outline} :
    graph.outlineIn enter server worker node = .ok outline ↔
      ∃ detail children, graph.detailOf worker node = .ok detail ∧
        graph.outlineBelow enter server worker node = .ok children ∧
        outline = ⟨lineOf node server worker detail, children⟩ := by
  rw [outlineIn_eq, orHalt_bind_eq_ok]
  constructor
  · rintro ⟨detail, hdetail, h⟩
    obtain ⟨children, hchildren, h⟩ := bind_eq_ok.mp h
    exact ⟨detail, children, hdetail, hchildren, (pure_eq_ok.mp h).symm⟩
  · rintro ⟨detail, children, hdetail, hchildren, rfl⟩
    exact ⟨detail, hdetail, bind_eq_ok.mpr ⟨children, hchildren, rfl⟩⟩

/-- Below a node that is no receive are its inputs, if it has as many as its operator takes. -/
theorem outlineBelow_of_inner {node : PlanTree}
    (harity : node.operator.arity.admits node.inputs.length = true)
    (hreceive : ∀ receive, node.operator ≠ .receive receive) :
    graph.outlineBelow enter server worker node =
      node.inputs.mapM (graph.outlineIn enter server worker) := by
  obtain ⟨id, stage, operator, inputs⟩ := node
  have hleaf (hnone : operator.arity = .none) :
      inputs.mapM (graph.outlineIn enter server worker) = .ok [] := by
    have hnil : inputs = [] := PlanTree.inputs_eq_nil harity hnone
    rw [hnil]
    rfl
  cases operator with
  | receive receive => exact absurd rfl (hreceive receive)
  | tableScan table columns => exact (hleaf rfl).symm
  | values rows => exact (hleaf rfl).symm
  | explained title attributes => exact (hleaf rfl).symm
  | _ => rfl

/-- The line of a node that is explained is expanded. -/
theorem expanded_lineOf {node : PlanTree} {detail : LineDetail}
    (h : graph.detailOf worker node = .ok detail) :
    (lineOf node server worker detail).expanded = true := by
  obtain ⟨id, stage, operator, inputs⟩ := node
  rw [detailOf] at h
  cases operator with
  | exchange distribution keys => exact nomatch h
  | receive receive => cases h; rfl
  | values rows => cases h; rfl
  | explained title attributes => cases h; rfl
  | tableScan table columns =>
    obtain ⟨names, -, ⟨⟩⟩ := bind_eq_ok.mp h
    rfl
  | send send =>
    obtain ⟨input, -, h⟩ := bind_eq_ok.mp h
    obtain ⟨targets, -, ⟨⟩⟩ := bind_eq_ok.mp h
    rfl
  | _ =>
    obtain ⟨input, -, ⟨⟩⟩ := bind_eq_ok.mp h
    rfl

/-! ### A receive -/

/-- The worker that is followed in a stage: the last of its destinations. -/
def followed? (graph : StageGraph) (id : StageId) : Option (Server × WorkerId) :=
  graph.stages[id]?.bind fun planned => planned.assignment.destinations.getLast?

/-- The outline stands for a worker of the stage with the root `root` which is not followed. -/
def Omits (root : PlanTree) (destination : Server × WorkerId) (outline : Outline) : Prop :=
  ∃ targets, outline = ⟨lineOf root destination.1 destination.2 (.omitted targets), []⟩

/-- **What is below a receive**: the workers of the stage that it names, in the order of their
destinations, of which the last is followed. -/
theorem outlineSenders_eq_ok {id : NodeId} {holder : StageId} {receive : Receive}
    {children : List Outline} :
    graph.outlineSenders enter id holder receive = .ok children ↔
      ∃ (planned : PlannedStage) (send : Send) (destination : Server × WorkerId)
        (omitted : List Outline) (followed : Outline),
        graph.stages[receive.sender]? = some planned ∧
        graph.feeder receive holder = .ok (planned.stage.root, send) ∧
        planned.assignment.destinations.getLast? = some destination ∧
        planned.assignment.destinations.dropLast.mapM
          (graph.omittedSend planned.stage.root send) = .ok omitted ∧
        enter destination.1 destination.2 planned.stage.root = .ok followed ∧
        children = omitted ++ [followed] := by
  rw [outlineSenders]
  constructor
  · intro h
    obtain ⟨⟨root, send⟩, hfeeder, h⟩ := orHalt_bind_eq_ok.mp h
    obtain ⟨planned, hplanned, h⟩ := orHalt_bind_eq_ok.mp h
    rw [stage_eq_ok] at hplanned
    obtain ⟨found, hfound, rfl, -⟩ := feeder_eq_ok.mp hfeeder
    obtain rfl : found = planned := Option.some.inj (hfound.symm.trans hplanned)
    dsimp only at h
    cases hlast : found.assignment.destinations.getLast? with
    | none =>
      rw [hlast] at h
      exact nomatch h
    | some destination =>
      rw [hlast] at h
      obtain ⟨omitted, homitted, h⟩ := orHalt_bind_eq_ok.mp h
      obtain ⟨followed, hfollowed, h⟩ := bind_eq_ok.mp h
      exact ⟨found, send, destination, omitted, followed, hplanned, hfeeder, hlast, homitted,
        hfollowed, (pure_eq_ok.mp h).symm⟩
  · rintro ⟨planned, send, destination, omitted, followed, hplanned, hfeeder, hlast, homitted,
      hfollowed, rfl⟩
    refine orHalt_bind_eq_ok.mpr ⟨_, hfeeder, orHalt_bind_eq_ok.mpr
      ⟨planned, stage_eq_ok.mpr hplanned, ?_⟩⟩
    dsimp only
    rw [hlast]
    exact orHalt_bind_eq_ok.mpr ⟨omitted, homitted, bind_eq_ok.mpr ⟨followed, hfollowed, rfl⟩⟩

/-- The workers in front of the last one are not followed. -/
theorem omits_of_mapM {root : PlanTree} {send : Send} {destinations : List (Server × WorkerId)}
    {omitted : List Outline}
    (h : destinations.mapM (graph.omittedSend root send) = .ok omitted) :
    List.Forall₂ (Omits root) destinations omitted := by
  refine (mapM_eq_ok.mp h).imp fun destination outline houtline => ?_
  obtain ⟨targets, -, h⟩ := bind_eq_ok.mp houtline
  exact ⟨targets, (pure_eq_ok.mp h).symm⟩

/-! ### The bound on borders -/

/-- An outline that is there stays the same if more can be entered. -/
theorem outlineIn_mono (henter : ∀ server worker node outline,
      enter server worker node = .ok outline → enter' server worker node = .ok outline)
    (node : PlanTree) : ∀ outline, graph.outlineIn enter server worker node = .ok outline →
      graph.outlineIn enter' server worker node = .ok outline := by
  induction node with
  | node id stage operator inputs ih =>
    intro outline h
    obtain ⟨detail, children, hdetail, hbelow, rfl⟩ := outlineIn_eq_ok.mp h
    refine outlineIn_eq_ok.mpr ⟨detail, children, hdetail, ?_, rfl⟩
    rw [outlineBelow] at hbelow ⊢
    cases operator with
    | receive receive =>
      obtain ⟨planned, send, destination, omitted, followed, hplanned, hfeeder, hlast, homitted,
        hfollowed, rfl⟩ := outlineSenders_eq_ok.mp hbelow
      exact outlineSenders_eq_ok.mpr ⟨planned, send, destination, omitted, followed, hplanned,
        hfeeder, hlast, homitted, henter _ _ _ _ hfollowed, rfl⟩
    | tableScan table columns => exact hbelow
    | values rows => exact hbelow
    | explained title attributes => exact hbelow
    | _ => exact mapM_mono ih hbelow

/-- What is entered at a receive if at most `borders` borders may be crossed. -/
def entering (graph : StageGraph) : Nat → Server → WorkerId → PlanTree → Except Halt Outline
  | 0 => fun _ _ _ => .error .endless
  | borders + 1 => graph.outline borders

theorem outline_eq (borders : Nat) :
    graph.outline borders = graph.outlineIn (graph.entering borders) := by
  funext server worker node
  cases borders <;> rfl

/-- **A larger bound gives the same outline.** -/
theorem outline_mono {borders borders' : Nat} (hle : borders ≤ borders') {node : PlanTree}
    {outline : Outline} (h : graph.outline borders server worker node = .ok outline) :
    graph.outline borders' server worker node = .ok outline := by
  -- one more border at a time
  have hstep (borders : Nat) : ∀ server worker node outline,
      graph.outline borders server worker node = .ok outline →
        graph.outline (borders + 1) server worker node = .ok outline := by
    induction borders with
    | zero =>
      -- without a border to cross, nothing was entered
      intro server worker node
      refine outlineIn_mono ?_ node
      intro server worker node outline h
      exact nomatch h
    | succ borders ih => exact fun server worker node => outlineIn_mono ih node
  induction hle with
  | refl => exact h
  | step _ ih => exact hstep _ _ _ _ _ ih

end StageGraph

end StagedQuery
