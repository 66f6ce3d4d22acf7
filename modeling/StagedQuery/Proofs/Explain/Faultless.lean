import StagedQuery.Proofs.Explain.NodeByNode

/-!
# Explaining meets no fault

`StagedQuery.StageGraph.outline` asks a graph for stages, senders, workers and
mailboxes as it goes, and fails where one is missing. In a well-formed graph none
is, so that it can only end with an outline or by running into its bound on borders
(`StagedQuery.StageGraph.outline_settles`).

**Which of the two it is does not depend on the worker.** It depends on how far the
senders of a stage go down (`StagedQuery.StageGraph.Within`), and on nothing else in
the graph. The proofs carry both statements at once: `StagedQuery.Settles` says that an
outcome is an answer if a condition holds, and the bound being used up if it does
not.

What carries the argument from stage to stage is that the node at hand is a node of
the stage it claims to belong to, and that the worker at hand is described by that
stage: at a receive the outline goes on at the root of the sending stage, with a
worker assigned to it, and the workers assigned are the workers described.
-/

namespace StagedQuery

/-! ### Outcomes without fault -/

/-- **An outcome that is no fault**: an answer if `p` holds, and the bound used up if
it does not. -/
def Settles {α : Type} (outcome : Except Halt α) (p : Prop) : Prop :=
  p ∧ (∃ a, outcome = .ok a) ∨ ¬p ∧ outcome = .error .endless

namespace Settles

variable {α β : Type} {p q : Prop}

theorem of_ok {outcome : Except Halt α} {a : α} (h : outcome = .ok a) (hp : p) :
    Settles outcome p :=
  .inl ⟨hp, a, h⟩

theorem endless (hp : ¬p) : Settles (.error .endless : Except Halt α) p := .inr ⟨hp, rfl⟩

theorem congr {outcome : Except Halt α} (h : Settles outcome p) (hpq : p ↔ q) :
    Settles outcome q :=
  h.imp (.imp_left hpq.mp) (.imp_left (mt hpq.mpr))

/-- A step that is an answer is followed by the next one. -/
theorem after {x : Except Halt α} {f : α → Except Halt β} {a : α} (hx : x = .ok a)
    (hf : Settles (f a) p) : Settles (x >>= f) p := by
  subst hx
  exact hf

/-- Two steps one after the other. -/
theorem bind {x : Except Halt α} {f : α → Except Halt β} (hx : Settles x p)
    (hf : ∀ a, Settles (f a) q) : Settles (x >>= f) (p ∧ q) := by
  rcases hx with ⟨hp, a, rfl⟩ | ⟨hp, rfl⟩
  · exact (hf a).congr (and_iff_right hp).symm
  · exact endless fun h => hp h.1

/-- A step and what is made of its answer. -/
theorem map {x : Except Halt α} (hx : Settles x p) (f : α → β) :
    Settles (x >>= fun a => pure (f a)) p :=
  (hx.bind fun _ => of_ok (p := True) rfl trivial).congr (and_iff_left trivial)

end Settles

theorem orHalt_of_ok {α : Type} {outcome : Except PlanError α} {a : α} (h : outcome = .ok a) :
    orHalt outcome = .ok a := by
  subst h
  rfl

namespace StageGraph

variable {graph : StageGraph}

/-! ### What a worker of a sound stage is asked for -/

section

variable {id : StageId} {planned : PlannedStage} {worker : WorkerId}

/-- A send in a sound stage is the root of the stage. -/
theorem StageSound.eq_root_of_send (sound : graph.StageSound id planned) {node : PlanTree}
    (hnode : node ∈ planned.stage.root.nodes) {send : Send} (hsend : node.operator = .send send) :
    node = planned.stage.root := by
  rcases PlanTree.mem_nodes.mp hnode with rfl | ⟨input, hin, h⟩
  · rfl
  · exact absurd hsend (sound.unburied input hin node h send)

/-- A worker of a sound stage has mailboxes to send to. -/
theorem StageSound.exists_sendTargets (sound : graph.StageSound id planned)
    (hplanned : graph.stages[id]? = some planned) {send : Send}
    (hsend : planned.stage.root.operator = .send send) (hworker : worker ∈ planned.workers) :
    ∃ targets, graph.sendTargets id send worker = .ok targets := by
  obtain ⟨links, hlinks⟩ := mem_iff_exists_entry.mp hworker
  have hreceivers : planned.stage.receivers = send.receivers := by
    rw [Stage.receivers, hsend, Operator.receivers]
  have hper : ∃ perReceiver, (send.receivers.mapM fun receiver =>
      planned.targetsFor worker receiver >>= fun mailboxes =>
        pure ((Mailbox.sort mailboxes).map fun mailbox => (receiver, mailbox))) =
      .ok perReceiver := by
    refine exists_mapM_eq_ok fun receiver hreceiver => ?_
    obtain ⟨mailboxes, hmailboxes, -⟩ :=
      (sound.workers worker links hlinks).sends receiver (hreceivers ▸ hreceiver)
    exact ⟨_, bind_eq_ok.mpr ⟨mailboxes, (targetsFor_eq_ok hlinks).mpr hmailboxes, rfl⟩⟩
  obtain ⟨perReceiver, hper⟩ := hper
  exact ⟨_, bind_eq_ok.mpr ⟨planned, stage_eq_ok.mpr hplanned,
    bind_eq_ok.mpr ⟨perReceiver, hper, rfl⟩⟩⟩

/-- **A worker of a sound stage has something to say of each of its nodes.** -/
theorem StageSound.exists_detailOf (sound : graph.StageSound id planned)
    (hplanned : graph.stages[id]? = some planned) {node : PlanTree}
    (hnode : node ∈ planned.stage.root.nodes) (hworker : worker ∈ planned.workers) :
    ∃ detail, graph.detailOf worker node = .ok detail := by
  obtain ⟨hheld, harity, hcut, -⟩ := sound.nodes node hnode
  have honly (hone : node.operator.arity = .one) : ∃ input, node.onlyInput = .ok input :=
    PlanTree.onlyInput_ok harity hone
  rw [detailOf]
  cases hop : node.operator with
  | exchange distribution keys => exact absurd hop (hcut distribution keys)
  | tableScan table columns =>
    rw [hheld]
    exact ⟨_, bind_eq_ok.mpr ⟨_, bind_eq_ok.mpr ⟨planned, stage_eq_ok.mpr hplanned, rfl⟩, rfl⟩⟩
  | send send =>
    obtain ⟨input, hinput⟩ := honly (by rw [hop]; rfl)
    have hroot : planned.stage.root.operator = .send send :=
      sound.eq_root_of_send hnode hop ▸ hop
    obtain ⟨targets, htargets⟩ := sound.exists_sendTargets hplanned hroot hworker
    rw [← hheld] at htargets
    exact ⟨_, bind_eq_ok.mpr ⟨input, hinput, bind_eq_ok.mpr ⟨targets, htargets, rfl⟩⟩⟩
  | receive receive => exact ⟨_, rfl⟩
  | values rows => exact ⟨_, rfl⟩
  | explained title attributes => exact ⟨_, rfl⟩
  | join type on =>
    exact ⟨_, bind_eq_ok.mpr ⟨(), PlanTree.checkInputCount_eq_ok.mpr harity, rfl⟩⟩
  | setOperation operation all =>
    exact ⟨_, bind_eq_ok.mpr ⟨(), PlanTree.checkInputCount_eq_ok.mpr harity, rfl⟩⟩
  | _ =>
    obtain ⟨input, hinput⟩ := honly (by rw [hop]; rfl)
    exact ⟨_, bind_eq_ok.mpr ⟨input, hinput, rfl⟩⟩

/-- The workers that a sound stage is said to run are described. -/
theorem StageSound.mem_workers (sound : graph.StageSound id planned)
    {destination : Server × WorkerId} (h : destination ∈ planned.assignment.destinations) :
    destination.2 ∈ planned.workers :=
  (sound.described _).mp (List.mem_map_of_mem h)

end

/-! ### One stage -/

/-- Every stage that the tree receives from is one with `Q`. -/
def Below (Q : StageId → Prop) (tree : PlanTree) : Prop :=
  ∀ node ∈ tree.nodes, ∀ receive, node.operator = .receive receive → Q receive.sender

theorem below_of_receive {Q : StageId → Prop} {id : NodeId} {stage : StageId} {receive : Receive} :
    Below Q ⟨id, stage, .receive receive, []⟩ ↔ Q receive.sender := by
  refine PlanTree.forall_mem_nodes.trans ⟨fun h => h.1 receive rfl, fun h => ⟨?_, nofun⟩⟩
  rintro _ ⟨⟩
  exact h

/-- What lies below a node that is no receive lies below its inputs. -/
theorem below_of_inner {Q : StageId → Prop} {id : NodeId} {stage : StageId} {operator : Operator}
    {inputs : List PlanTree} (h : ∀ receive, operator ≠ .receive receive) :
    Below Q ⟨id, stage, operator, inputs⟩ ↔ ∀ input ∈ inputs, Below Q input :=
  PlanTree.forall_mem_nodes.trans
    (and_iff_right fun receive hreceive => absurd hreceive (h receive))

section

variable {enter : Server → WorkerId → PlanTree → Except Halt Outline} {Q : StageId → Prop}

/-- The outlines of some inputs are there if each of them is. -/
theorem outlineInputs_settles {server : Server} {worker : WorkerId} {inputs : List PlanTree}
    (h : ∀ input ∈ inputs, Settles (graph.outlineIn enter server worker input) (Below Q input)) :
    Settles (inputs.mapM (graph.outlineIn enter server worker))
      (∀ input ∈ inputs, Below Q input) := by
  induction inputs with
  | nil => exact .of_ok rfl nofun
  | cons input rest ih =>
    obtain ⟨hinput, hrest⟩ := List.forall_mem_cons.mp h
    rw [List.mapM_cons]
    exact (hinput.bind fun _ => (ih hrest).map _).congr List.forall_mem_cons.symm

/-- **At a receive**, where `enter` settles for the workers of every stage: the
outlines below it are there if the one in the sending stage is. -/
theorem outlineSenders_settles
    (sound : ∀ id planned, graph.stages[id]? = some planned → graph.StageSound id planned)
    (henter : ∀ sender planned, graph.stages[sender]? = some planned → ∀ server,
      ∀ worker ∈ planned.workers, Settles (enter server worker planned.stage.root) (Q sender))
    {holder : StageId} {receive : Receive} (hfed : graph.SendsTo receive.sender holder)
    (id : NodeId) :
    Settles (graph.outlineSenders enter id holder receive) (Q receive.sender) := by
  obtain ⟨planned, hplanned, send, hsend, hholder⟩ := hfed
  have hsound := sound _ _ hplanned
  have hroot := hsound.nodes planned.stage.root planned.stage.root.self_mem_nodes
  have hne : planned.assignment.destinations ≠ [] := fun h =>
    hsound.busy (List.map_eq_nil_iff.mpr h)
  have hlast := List.getLast?_eq_some_getLast hne
  obtain ⟨omitted, homitted⟩ : ∃ omitted, planned.assignment.destinations.dropLast.mapM
      (graph.omittedSend planned.stage.root send) = .ok omitted := by
    refine exists_mapM_eq_ok fun destination hmem => ?_
    obtain ⟨targets, htargets⟩ := hsound.exists_sendTargets hplanned hsend
      (hsound.mem_workers ((List.dropLast_sublist _).subset hmem))
    rw [← hroot.held] at htargets
    exact ⟨_, bind_eq_ok.mpr ⟨targets, htargets, rfl⟩⟩
  rw [outlineSenders]
  refine .after (orHalt_of_ok (feeder_eq_ok.mpr ⟨planned, hplanned, rfl, hsend, hholder⟩)) ?_
  refine .after (orHalt_of_ok (stage_eq_ok.mpr hplanned)) ?_
  dsimp only
  rw [hlast]
  refine .after (orHalt_of_ok homitted) ?_
  -- only the last worker of the sender is followed
  exact (henter _ _ hplanned _ _ (hsound.mem_workers (List.getLast_mem hne))).map _

/-- **Inside one stage**: the outline of a node is there if those of all stages that
lie below its receives are. -/
theorem outlineIn_settles
    (sound : ∀ id planned, graph.stages[id]? = some planned → graph.StageSound id planned)
    (henter : ∀ sender planned, graph.stages[sender]? = some planned → ∀ server,
      ∀ worker ∈ planned.workers, Settles (enter server worker planned.stage.root) (Q sender))
    {holder : StageId} {planned : PlannedStage} (hplanned : graph.stages[holder]? = some planned)
    (server : Server) {worker : WorkerId} (hworker : worker ∈ planned.workers) (tree : PlanTree)
    (hin : tree ∈ planned.stage.root.nodes) :
    Settles (graph.outlineIn enter server worker tree) (Below Q tree) := by
  induction tree with
  | node id stage operator inputs ih =>
    have hsound := sound _ _ hplanned
    obtain ⟨hheld, harity, -, hfed⟩ := hsound.nodes _ hin
    obtain rfl : stage = holder := hheld
    obtain ⟨detail, hdetail⟩ := hsound.exists_detailOf hplanned hin hworker
    rw [outlineIn_eq]
    refine .after (orHalt_of_ok hdetail) (.map ?_ _)
    -- a receive leads out of the stage; at any other node the inputs decide
    rcases exists_or_forall_not (operator = .receive ·) with ⟨receive, rfl⟩ | hinner
    · have hnil : inputs = [] := PlanTree.inputs_eq_nil harity rfl
      subst hnil
      exact (outlineSenders_settles sound henter (hfed _ rfl).2 id).congr below_of_receive.symm
    · rw [outlineBelow_of_inner harity hinner]
      refine (outlineInputs_settles fun input hinput => ?_).congr (below_of_inner hinner).symm
      exact ih input hinput (PlanTree.input_mem_nodes hin hinput)

end

/-! ### From stage to stage -/

/-- A stage, its senders, their senders and so on make at most so many levels. -/
def Within (graph : StageGraph) : Nat → StageId → Prop
  | 0, _ => False
  | levels + 1, stage => ∀ sender, graph.ReceivesFrom stage sender → Within graph levels sender

theorem below_root {Q : StageId → Prop} {id : StageId} {planned : PlannedStage}
    (hplanned : graph.stages[id]? = some planned) :
    Below Q planned.stage.root ↔ ∀ sender, graph.ReceivesFrom id sender → Q sender := by
  constructor
  · rintro h sender ⟨found, hfound, node, hnode, receive, hreceive, rfl⟩
    rw [hplanned] at hfound
    cases hfound
    exact h node hnode receive hreceive
  · exact fun h node hnode receive hreceive =>
      h _ ⟨planned, hplanned, node, hnode, receive, hreceive, rfl⟩

/-- **The outline of a node** that a worker of its stage runs is there if what lies
below the node stays within the bound, and runs into the bound if it does not. -/
theorem outline_settles
    (sound : ∀ id planned, graph.stages[id]? = some planned → graph.StageSound id planned)
    (borders : Nat) {id : StageId} {planned : PlannedStage}
    (hplanned : graph.stages[id]? = some planned) (server : Server) {worker : WorkerId}
    (hworker : worker ∈ planned.workers) {node : PlanTree}
    (hnode : node ∈ planned.stage.root.nodes) :
    Settles (graph.outline borders server worker node) (Below (graph.Within borders) node) := by
  induction borders generalizing id planned server worker node with
  | zero =>
    -- no border may be crossed, so what is entered is out of bounds at once
    exact outlineIn_settles sound (fun _ _ _ _ _ _ => .endless fun h => h) hplanned server
      hworker node hnode
  | succ borders ih =>
    refine outlineIn_settles sound (fun sender found hfound other who hwho => ?_) hplanned server
      hworker node hnode
    exact (ih hfound other hwho found.stage.root.self_mem_nodes).congr (below_root hfound)

/-- **The outline of a whole graph** is there if the root stage stays within the
bound, and runs into the bound if it does not. -/
theorem outlineRoot_settles (h : graph.WellFormed) (borders : Nat) :
    Settles (graph.outlineRoot borders) (graph.Within (borders + 1) graph.root) := by
  obtain ⟨planned, hplanned, hsize⟩ := h.root
  have hsound := h.stages _ _ hplanned
  obtain ⟨destination, hone⟩ := List.length_eq_one_iff.mp hsize
  have hfirst : graph.firstDestination = .ok destination :=
    bind_eq_ok.mpr ⟨planned, stage_eq_ok.mpr hplanned, by rw [hone]; rfl⟩
  refine .after (orHalt_of_ok (stage_eq_ok.mpr hplanned)) (.after (orHalt_of_ok hfirst) ?_)
  have hworker := hsound.mem_workers (hone ▸ List.mem_singleton_self destination)
  exact (outline_settles h.stages borders hplanned destination.1 hworker
    planned.stage.root.self_mem_nodes).congr (below_root hplanned)

end StageGraph

end StagedQuery
