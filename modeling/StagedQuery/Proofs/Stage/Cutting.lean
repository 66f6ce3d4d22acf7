import StagedQuery.Proofs.Outcome
import StagedQuery.Proofs.Plan.Nodes
import StagedQuery.Stage.Cutting

/-!
# What cutting makes of a tree

`StagedQuery.PlanTree.cut` hands ids from one call to the next and records stages on
the way. Both can be said without a state, since how many ids a tree takes can be read
off its nodes: `StagedQuery.PlanTree.kept` is the part of a tree that stays in a stage,
and `StagedQuery.PlanTree.closed` are the stages cut off below it in the order in which
they are finished, given the number of the next stage and of the next node. The two
ways come to the same (`StagedQuery.PlanTree.cut_eq`).

Whether a tree can be cut is a question to each of its nodes
(`StagedQuery.PlanTree.checkCut`), and the nodes are asked in pre-order, the nodes below
an exchange included.

A stage is finished after the stages below it, so `StagedQuery.PlanTree.closed` lists it
behind them. In the order of their ids the stages stand in pre-order
(`StagedQuery.PlanTree.opened`); the two lists hold the same stages.
-/

namespace StagedQuery

namespace PlanTree

/-! ### Counting ids -/

/-- How many of some nodes are exchanges, and so how many stages are cut off there. -/
def exchangeCount (nodes : List PlanTree) : Nat := nodes.countP (·.operator.isExchange)

/-- How many node ids are handed out for some nodes: one for each node, and a second
one for each exchange, which becomes a receive and a send. -/
def idCount (nodes : List PlanTree) : Nat := nodes.length + exchangeCount nodes

theorem exchangeCount_append (nodes nodes' : List PlanTree) :
    exchangeCount (nodes ++ nodes') = exchangeCount nodes + exchangeCount nodes' :=
  List.countP_append

theorem idCount_append (nodes nodes' : List PlanTree) :
    idCount (nodes ++ nodes') = idCount nodes + idCount nodes' := by
  rw [idCount, idCount, idCount, List.length_append, exchangeCount_append]
  omega

section

variable (id : NodeId) (stage : StageId) (inputs : List PlanTree)

theorem exchangeCount_exchange (distribution : Distribution) (keys : List String) :
    exchangeCount (nodes ⟨id, stage, .exchange distribution keys, inputs⟩) =
      exchangeCount (inputs.flatMap nodes) + 1 := by
  rw [nodes_mk]
  exact List.countP_cons_of_pos rfl

theorem exchangeCount_inner {operator : Operator} (h : operator.isExchange = false) :
    exchangeCount (nodes ⟨id, stage, operator, inputs⟩) =
      exchangeCount (inputs.flatMap nodes) := by
  rw [nodes_mk]
  exact List.countP_cons_of_neg (by simp [h])

theorem idCount_exchange (distribution : Distribution) (keys : List String) :
    idCount (nodes ⟨id, stage, .exchange distribution keys, inputs⟩) =
      idCount (inputs.flatMap nodes) + 2 := by
  rw [idCount, exchangeCount_exchange, nodes_mk, List.length_cons, idCount]
  omega

theorem idCount_inner {operator : Operator} (h : operator.isExchange = false) :
    idCount (nodes ⟨id, stage, operator, inputs⟩) = idCount (inputs.flatMap nodes) + 1 := by
  rw [idCount, exchangeCount_inner _ _ _ h, nodes_mk, List.length_cons, idCount]
  omega

end

/-! ### What cutting asks of a node -/

/-- **A node that can be cut**: it has the inputs that its operator takes, and it is no
end of a border that has been cut already. -/
structure Cuttable (node : PlanTree) : Prop where
  /-- It has as many inputs as its operator takes. -/
  arity : node.operator.arity.admits node.inputs.length = true
  /-- It is neither a send nor a receive. -/
  uncut : node.operator.isBorderEnd = false

theorem Cuttable.ne_send {node : PlanTree} (h : node.Cuttable) (send : Send) :
    node.operator ≠ .send send := by
  intro hop
  have huncut := h.uncut
  rw [hop] at huncut
  exact Bool.noConfusion huncut

theorem Cuttable.ne_receive {node : PlanTree} (h : node.Cuttable) (receive : Receive) :
    node.operator ≠ .receive receive := by
  intro hop
  have huncut := h.uncut
  rw [hop] at huncut
  exact Bool.noConfusion huncut

/-- Accepts a node that can be cut. -/
def checkCut (node : PlanTree) : Except PlanError Unit :=
  match node.checkInputCount with
  | .error fault => .error fault
  | .ok () => if node.operator.isBorderEnd then .error (.planning .alreadyCut) else .ok ()

theorem checkCut_eq_ok {node : PlanTree} : node.checkCut = .ok () ↔ node.Cuttable := by
  rw [checkCut]
  cases hcount : node.checkInputCount with
  | error fault =>
    refine iff_of_false nofun fun h => ?_
    rw [checkInputCount_eq_ok.mpr h.arity] at hcount
    exact nomatch hcount
  | ok =>
    refine ite_error_eq_ok.trans ⟨fun ⟨h, _⟩ => ⟨checkInputCount_eq_ok.mp hcount, ?_⟩,
      fun h => ⟨?_, rfl⟩⟩
    · rwa [Bool.not_eq_true] at h
    · rw [h.uncut]
      exact Bool.false_ne_true

/-- What is said of a node that cannot be cut. -/
theorem checkCut_eq_error {node : PlanTree} {fault : PlanError} (h : node.checkCut = .error fault) :
    node.checkInputCount = .error fault ∨ fault = .planning .alreadyCut := by
  rw [checkCut] at h
  cases hcount : node.checkInputCount with
  | error other =>
    rw [hcount] at h
    exact .inl (congrArg _ (Except.error.inj h))
  | ok =>
    rw [hcount] at h
    dsimp only at h
    split_ifs at h
    exact .inr (Except.error.inj h).symm

/-! ### The part that stays -/

mutual

/-- The part of a tree that stays in `stage`, if the next stage has the number `k` and
the next node the number `n`. -/
def kept (stage : StageId) (k n : Nat) : PlanTree → PlanTree
  | ⟨_, _, operator, inputs⟩ =>
    match operator with
    | .exchange distribution _ => ⟨Id.ofNat n, stage, .receive ⟨Id.ofNat k, distribution⟩, []⟩
    | operator => ⟨Id.ofNat n, stage, operator, keptList stage k (n + 1) inputs⟩

/-- The parts of several trees that stay in `stage`. -/
def keptList (stage : StageId) (k n : Nat) : List PlanTree → List PlanTree
  | [] => []
  | node :: rest =>
    kept stage k n node ::
      keptList stage (k + exchangeCount node.nodes) (n + idCount node.nodes) rest

end

/-- The stage that an exchange opens over the trees below it. -/
def stageOver (receiver : StageId) (k n : Nat) (distribution : Distribution) (keys : List String)
    (inputs : List PlanTree) : Stage :=
  ⟨Id.ofNat k, ⟨Id.ofNat (n + 1), Id.ofNat k, .send ⟨[receiver], distribution, keys⟩,
    keptList (Id.ofNat k) (k + 1) (n + 2) inputs⟩⟩

/-! ### The stages cut off -/

mutual

/-- The stages cut off below a tree in the order in which they are opened, which is
that of their ids. -/
def opened (stage : StageId) (k n : Nat) : PlanTree → List Stage
  | ⟨_, _, operator, inputs⟩ =>
    match operator with
    | .exchange distribution keys =>
      stageOver stage k n distribution keys inputs ::
        openedList (Id.ofNat k) (k + 1) (n + 2) inputs
    | _ => openedList stage k (n + 1) inputs

/-- The stages cut off below several trees in the order in which they are opened. -/
def openedList (stage : StageId) (k n : Nat) : List PlanTree → List Stage
  | [] => []
  | node :: rest =>
    opened stage k n node ++
      openedList stage (k + exchangeCount node.nodes) (n + idCount node.nodes) rest

end

mutual

/-- The stages cut off below a tree in the order in which they are finished. -/
def closed (stage : StageId) (k n : Nat) : PlanTree → List Stage
  | ⟨_, _, operator, inputs⟩ =>
    match operator with
    | .exchange distribution keys =>
      closedList (Id.ofNat k) (k + 1) (n + 2) inputs ++
        [stageOver stage k n distribution keys inputs]
    | _ => closedList stage k (n + 1) inputs

/-- The stages cut off below several trees in the order in which they are finished. -/
def closedList (stage : StageId) (k n : Nat) : List PlanTree → List Stage
  | [] => []
  | node :: rest =>
    closed stage k n node ++
      closedList stage (k + exchangeCount node.nodes) (n + idCount node.nodes) rest

end

section

variable (s : StageId) (k n : Nat) (id : NodeId) (stage : StageId) (inputs : List PlanTree)

theorem kept_exchange (distribution : Distribution) (keys : List String) :
    kept s k n ⟨id, stage, .exchange distribution keys, inputs⟩ =
      ⟨Id.ofNat n, s, .receive ⟨Id.ofNat k, distribution⟩, []⟩ := by
  rw [kept]

theorem opened_exchange (distribution : Distribution) (keys : List String) :
    opened s k n ⟨id, stage, .exchange distribution keys, inputs⟩ =
      stageOver s k n distribution keys inputs ::
        openedList (Id.ofNat k) (k + 1) (n + 2) inputs := by
  rw [opened]

theorem closed_exchange (distribution : Distribution) (keys : List String) :
    closed s k n ⟨id, stage, .exchange distribution keys, inputs⟩ =
      closedList (Id.ofNat k) (k + 1) (n + 2) inputs ++
        [stageOver s k n distribution keys inputs] := by
  rw [closed]

variable {operator : Operator} (h : operator.isExchange = false)

include h

theorem kept_inner : kept s k n ⟨id, stage, operator, inputs⟩ =
    ⟨Id.ofNat n, s, operator, keptList s k (n + 1) inputs⟩ := by
  rw [kept]
  rintro distribution keys rfl
  exact Bool.noConfusion h

theorem opened_inner : opened s k n ⟨id, stage, operator, inputs⟩ =
    openedList s k (n + 1) inputs := by
  rw [opened]
  rintro distribution keys rfl
  exact Bool.noConfusion h

theorem closed_inner : closed s k n ⟨id, stage, operator, inputs⟩ =
    closedList s k (n + 1) inputs := by
  rw [closed]
  rintro distribution keys rfl
  exact Bool.noConfusion h

end

/-! ### Induction along the numbering -/

/-- **Induction over a tree as it is cut**: along the nodes, with the stage that a node
is cut for and the numbers of the next stage and node. -/
theorem cutInduction {P : StageId → Nat → Nat → PlanTree → Prop}
    {Q : StageId → Nat → Nat → List PlanTree → Prop}
    (exchange : ∀ s k n id stage distribution keys inputs, Q (Id.ofNat k) (k + 1) (n + 2) inputs →
      P s k n ⟨id, stage, .exchange distribution keys, inputs⟩)
    (inner : ∀ s k n id stage operator inputs, operator.isExchange = false →
      Q s k (n + 1) inputs → P s k n ⟨id, stage, operator, inputs⟩)
    (nil : ∀ s k n, Q s k n [])
    (cons : ∀ s k n node rest, P s k n node →
      Q s (k + exchangeCount node.nodes) (n + idCount node.nodes) rest → Q s k n (node :: rest)) :
    (∀ s k n node, P s k n node) ∧ ∀ s k n inputs, Q s k n inputs := by
  suffices (∀ node s k n, P s k n node) ∧ ∀ inputs s k n, Q s k n inputs from
    ⟨fun s k n node => this.1 node s k n, fun s k n inputs => this.2 inputs s k n⟩
  refine pairInduction (fun id stage operator inputs ih s k n => ?_) (fun s k n => nil s k n)
    fun node rest hnode hrest s k n => cons s k n node rest (hnode s k n) (hrest _ _ _)
  cases hex : operator.isExchange with
  | false => exact inner s k n id stage operator inputs hex (ih _ _ _)
  | true =>
    cases operator with
    | exchange distribution keys =>
      exact exchange s k n id stage distribution keys inputs (ih _ _ _)
    | _ => exact Bool.noConfusion hex

/-- Opening and finishing give the same stages. -/
theorem closed_perm : (∀ s k n node, (closed s k n node).Perm (opened s k n node)) ∧
    ∀ s k n inputs, (closedList s k n inputs).Perm (openedList s k n inputs) := by
  refine cutInduction (fun s k n id stage distribution keys inputs ih => ?_)
    (fun s k n id stage operator inputs h ih => ?_) (fun s k n => ?_)
    fun s k n node rest hnode hrest => ?_
  · rw [closed_exchange, opened_exchange]
    exact (List.perm_append_singleton _ _).trans (ih.cons _)
  · rwa [closed_inner _ _ _ _ _ _ h, opened_inner _ _ _ _ _ _ h]
  · rw [closedList, openedList]
  · rw [closedList, openedList]
    exact hnode.append hrest

end PlanTree

/-! ### Cutting, step by step and at once -/

/-- The stages with some more recorded, one after the other. -/
def recordAll (recorded : StageMap Stage) (stages : List Stage) : StageMap Stage :=
  stages.foldl (fun recorded stage => recorded.insert stage.id stage) recorded

theorem recordAll_append (recorded : StageMap Stage) (stages stages' : List Stage) :
    recordAll recorded (stages ++ stages') = recordAll (recordAll recorded stages) stages' :=
  List.foldl_append

/-- What has been handed out and recorded after some nodes have been cut, `stages` being
the stages finished there. -/
def Cuts.after (cuts : Cuts) (nodes : List PlanTree) (stages : List Stage) : Cuts :=
  ⟨cuts.nextStage + PlanTree.exchangeCount nodes, cuts.nextNode + PlanTree.idCount nodes,
    recordAll cuts.stages stages⟩

namespace PlanTree

theorem cut_exchange (s : StageId) (id : NodeId) (stage : StageId) (distribution : Distribution)
    (keys : List String) (inputs : List PlanTree) (cuts : Cuts) :
    cut s ⟨id, stage, .exchange distribution keys, inputs⟩ cuts =
      (checkCut ⟨id, stage, .exchange distribution keys, inputs⟩ >>= fun _ =>
        cutList (Id.ofNat cuts.nextStage) inputs
          ⟨cuts.nextStage + 1, cuts.nextNode + 2, cuts.stages⟩).map fun (below, after) =>
        (⟨Id.ofNat cuts.nextNode, s, .receive ⟨Id.ofNat cuts.nextStage, distribution⟩, []⟩,
          after.close (Id.ofNat cuts.nextStage)
            ⟨Id.ofNat (cuts.nextNode + 1), Id.ofNat cuts.nextStage,
              .send ⟨[s], distribution, keys⟩, below⟩) := by
  rw [cut, checkCut]
  cases checkInputCount ⟨id, stage, .exchange distribution keys, inputs⟩ with
  | error fault => rfl
  | ok =>
    dsimp only [Cuts.takeNode, Cuts.takeStage]
    change _ = (cutList (Id.ofNat cuts.nextStage) inputs _).map _
    cases cutList (Id.ofNat cuts.nextStage) inputs
      ⟨cuts.nextStage + 1, cuts.nextNode + 1 + 1, cuts.stages⟩ <;> rfl

theorem cut_inner (s : StageId) (id : NodeId) (stage : StageId) {operator : Operator}
    (inputs : List PlanTree) (cuts : Cuts) (h : operator.isExchange = false) :
    cut s ⟨id, stage, operator, inputs⟩ cuts =
      (checkCut ⟨id, stage, operator, inputs⟩ >>= fun _ =>
        cutList s inputs ⟨cuts.nextStage, cuts.nextNode + 1, cuts.stages⟩).map
          fun (inputs, after) => (⟨Id.ofNat cuts.nextNode, s, operator, inputs⟩, after) := by
  cases operator with
  | exchange distribution keys => exact Bool.noConfusion h
  | send send =>
    rw [cut, checkCut]
    cases checkInputCount ⟨id, stage, .send send, inputs⟩ <;> rfl
  | receive receive =>
    rw [cut, checkCut]
    cases checkInputCount ⟨id, stage, .receive receive, inputs⟩ <;> rfl
  | _ =>
    rw [cut, checkCut]
    · cases checkInputCount ⟨id, stage, _, inputs⟩ with
      | error fault => rfl
      | ok =>
        dsimp only [Cuts.takeNode]
        change _ = (cutList s inputs _).map _
        cases cutList s inputs ⟨cuts.nextStage, cuts.nextNode + 1, cuts.stages⟩ <;> rfl
    all_goals nofun

/-- Closing the stage over an exchange after the stages below it. -/
theorem close_after (s : StageId) (id : NodeId) (stage : StageId) (k n : Nat)
    (recorded : StageMap Stage) (distribution : Distribution) (keys : List String)
    (inputs : List PlanTree) :
    ((⟨k + 1, n + 2, recorded⟩ : Cuts).after (inputs.flatMap nodes)
        (closedList (Id.ofNat k) (k + 1) (n + 2) inputs)).close (Id.ofNat k)
        (stageOver s k n distribution keys inputs).root =
      (⟨k, n, recorded⟩ : Cuts).after (nodes ⟨id, stage, .exchange distribution keys, inputs⟩)
        (closed s k n ⟨id, stage, .exchange distribution keys, inputs⟩) := by
  rw [Cuts.after, Cuts.after, exchangeCount_exchange, idCount_exchange, closed_exchange,
    recordAll_append, Cuts.close, Cuts.mk.injEq]
  refine ⟨?_, ?_, rfl⟩
  · dsimp only
    omega
  · dsimp only
    omega

/-- **Cutting a tree** gives what stays and what is cut off, if each of its nodes can be
cut; the first that cannot, in pre-order, is refused. -/
theorem cut_eq_both :
    (∀ s k n tree, ∀ recorded, cut s tree ⟨k, n, recorded⟩ =
      (forM tree.nodes checkCut).map fun _ => (kept s k n tree,
        (⟨k, n, recorded⟩ : Cuts).after tree.nodes (closed s k n tree))) ∧
    ∀ s k n inputs, ∀ recorded, cutList s inputs ⟨k, n, recorded⟩ =
      (forM (inputs.flatMap nodes) checkCut).map fun _ => (keptList s k n inputs,
        (⟨k, n, recorded⟩ : Cuts).after (inputs.flatMap nodes) (closedList s k n inputs)) := by
  refine cutInduction (fun s k n id stage distribution keys inputs ih recorded => ?_)
    (fun s k n id stage operator inputs h ih recorded => ?_) (fun s k n recorded => ?_)
    fun s k n node rest hnode hrest recorded => ?_
  · -- the stage over the exchange is closed after those below it
    rw [cut_exchange, ih, ← close_after, kept_exchange, nodes_mk, List.forM_cons]
    cases checkCut ⟨id, stage, .exchange distribution keys, inputs⟩ with
    | error fault => rfl
    | ok => cases forM (inputs.flatMap nodes) checkCut <;> rfl
  · rw [cut_inner _ _ _ _ _ h, ih, kept_inner _ _ _ _ _ _ h, closed_inner _ _ _ _ _ _ h,
      Cuts.after, Cuts.after, exchangeCount_inner _ _ _ h, idCount_inner _ _ _ h, nodes_mk,
      List.forM_cons, Nat.add_assoc, Nat.add_comm 1]
    cases checkCut ⟨id, stage, operator, inputs⟩ with
    | error fault => rfl
    | ok => cases forM (inputs.flatMap nodes) checkCut <;> rfl
  · rw [cutList]
    rfl
  · have hafter : ((⟨k, n, recorded⟩ : Cuts).after node.nodes (closed s k n node)) =
        ⟨k + exchangeCount node.nodes, n + idCount node.nodes,
          recordAll recorded (closed s k n node)⟩ := rfl
    rw [cutList, hnode, List.flatMap_cons, List.forM_append, keptList, closedList]
    cases forM node.nodes checkCut with
    | error fault => rfl
    | ok =>
      -- the numbering goes on where the first tree left it
      dsimp only [Except.map]
      rw [hafter, hrest]
      cases forM (rest.flatMap nodes) checkCut with
      | error fault => rfl
      | ok =>
        change Except.ok (_, Cuts.after _ _ _) = Except.ok (_, Cuts.after _ _ _)
        rw [Cuts.after, Cuts.after, exchangeCount_append, idCount_append, recordAll_append,
          Nat.add_assoc, Nat.add_assoc]

/-- **Cutting a tree** gives what stays and what is cut off, if each of its nodes can be
cut; the first that cannot, in pre-order, is refused. -/
theorem cut_eq (s : StageId) (tree : PlanTree) (cuts : Cuts) :
    cut s tree cuts = (forM tree.nodes checkCut).map fun _ =>
      (kept s cuts.nextStage cuts.nextNode tree,
        cuts.after tree.nodes (closed s cuts.nextStage cuts.nextNode tree)) :=
  cut_eq_both.1 s cuts.nextStage cuts.nextNode tree cuts.stages

end PlanTree

end StagedQuery
