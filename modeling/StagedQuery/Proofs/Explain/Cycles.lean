import Mathlib.Data.Finset.Card
import StagedQuery.Proofs.Explain.Faultless

/-!
# Which plans can be explained

A plan is explained by following its receives from stage to stage, and that comes to
an end exactly if no stage lies below itself. The check of a plan does not rule such
stages out: it refuses a stage that receives from itself, and nothing longer than
that. `StagedQuery.StageGraph.circle` is a plan that passes, although two of its
stages receive from one another.

**The bound is never too small.** Where no stage lies below itself, the stages below
a stage become fewer at every border that is crossed, so as many borders as there are
stages are enough. Where some stage does, the root leads to it, since the root depends
on every stage; and from there a receive can be followed for ever, whatever the
bound.
-/

namespace StagedQuery

namespace StageGraph

variable {graph : StageGraph}

/-- No stage lies below itself. -/
def Acyclic (graph : StageGraph) : Prop :=
  ∀ stage, ¬Relation.TransGen graph.ReceivesFrom stage stage

theorem mem_stages_of_receivesFrom {receiver sender : StageId}
    (h : graph.ReceivesFrom receiver sender) : receiver ∈ graph.stages := by
  obtain ⟨planned, hplanned, -⟩ := h
  exact mem_iff_exists_entry.mpr ⟨planned, hplanned⟩

/-! ### Without cycles -/

open Classical in
/-- The stages below a stage. -/
noncomputable def stagesBelow (graph : StageGraph) (stage : StageId) : Finset StageId :=
  graph.stages.keys.toFinset.filter (Relation.TransGen graph.ReceivesFrom stage)

theorem mem_stagesBelow {stage other : StageId} :
    other ∈ graph.stagesBelow stage ↔
      other ∈ graph.stages ∧ Relation.TransGen graph.ReceivesFrom stage other := by
  classical
  rw [stagesBelow, Finset.mem_filter, List.mem_toFinset, Std.ExtTreeMap.mem_keys]

/-- Below a sender there are fewer stages than below its receiver. -/
theorem card_stagesBelow_lt (hacyclic : graph.Acyclic) {receiver sender : StageId}
    (hsender : sender ∈ graph.stages) (h : graph.ReceivesFrom receiver sender) :
    (graph.stagesBelow sender).card < (graph.stagesBelow receiver).card := by
  refine Finset.card_lt_card ⟨fun other hother => ?_, fun hsub => ?_⟩
  · obtain ⟨hmem, hbelow⟩ := mem_stagesBelow.mp hother
    exact mem_stagesBelow.mpr ⟨hmem, hbelow.head h⟩
  · -- the sender itself is below the receiver, and not below itself
    have hmem := hsub (mem_stagesBelow.mpr ⟨hsender, .single h⟩)
    exact hacyclic sender (mem_stagesBelow.mp hmem).2

/-- A stage and what lies below it make no more levels than there are stages. -/
theorem within_of_acyclic (hthere : ∀ receiver sender, graph.ReceivesFrom receiver sender →
    sender ∈ graph.stages) (hacyclic : graph.Acyclic) :
    ∀ (levels : Nat) (stage : StageId), (graph.stagesBelow stage).card < levels →
      graph.Within levels stage := by
  intro levels
  induction levels with
  | zero => exact fun _ h => absurd h (Nat.not_lt_zero _)
  | succ levels ih =>
    intro stage h sender hsender
    have hlt := card_stagesBelow_lt hacyclic (hthere _ _ hsender) hsender
    exact ih sender (by omega)

theorem card_stagesBelow_le (stage : StageId) :
    (graph.stagesBelow stage).card ≤ graph.stages.size := by
  classical
  rw [← Std.ExtTreeMap.length_keys]
  exact (Finset.card_filter_le _ _).trans (List.toFinset_card_le _)

/-! ### With a cycle -/

/-- A stage from which a cycle can be reached stays within no bound: one of its
senders is of the same kind. -/
theorem not_within_of_cycle {stage looping : StageId}
    (hreach : Relation.ReflTransGen graph.ReceivesFrom stage looping)
    (hcycle : Relation.TransGen graph.ReceivesFrom looping looping) (levels : Nat) :
    ¬graph.Within levels stage := by
  induction levels generalizing stage with
  | zero => exact fun h => h
  | succ levels ih =>
    intro h
    -- one step down, on the way to the cycle or around it
    rcases Relation.ReflTransGen.cases_head hreach with rfl | ⟨next, hnext, hrest⟩
    · obtain ⟨next, hnext, hrest⟩ := Relation.TransGen.head'_iff.mp hcycle
      exact ih hrest (h next hnext)
    · exact ih hrest (h next hnext)

/-- In a well-formed graph with a cycle the outline runs into every bound. -/
theorem outlineRoot_endless (h : graph.WellFormed) {looping : StageId}
    (hcycle : Relation.TransGen graph.ReceivesFrom looping looping) (borders : Nat) :
    graph.outlineRoot borders = .error .endless := by
  obtain ⟨next, hnext, -⟩ := Relation.TransGen.head'_iff.mp hcycle
  have hneeded := h.needed looping (mem_stages_of_receivesFrom hnext)
  rcases outlineRoot_settles h borders with ⟨hwithin, -⟩ | ⟨-, hend⟩
  · exact absurd hwithin (not_within_of_cycle hneeded hcycle _)
  · exact hend

/-- In a well-formed graph without cycles the outline is there for the bound that is
used. -/
theorem exists_outlineRoot (h : graph.WellFormed) (hacyclic : graph.Acyclic) :
    ∃ outline, graph.outlineRoot graph.stages.size = .ok outline := by
  have hthere : ∀ receiver sender, graph.ReceivesFrom receiver sender →
      sender ∈ graph.stages := by
    rintro receiver sender ⟨planned, hplanned, node, hnode, receive, hreceive, rfl⟩
    obtain ⟨found, hfound, -⟩ :=
      (((h.stages _ _ hplanned).nodes node hnode).fed receive hreceive).2
    exact mem_iff_exists_entry.mpr ⟨found, hfound⟩
  have hwithin := within_of_acyclic hthere hacyclic (graph.stages.size + 1) graph.root
    (Nat.lt_succ_of_le (card_stagesBelow_le _))
  rcases outlineRoot_settles h graph.stages.size with ⟨-, hok⟩ | ⟨hnot, -⟩
  · exact hok
  · exact absurd hwithin hnot

/-! ### Two stages that receive from one another -/

/-- A stage with one worker, which finds that of every other stage on its own
server. -/
def lonePlanned (id : StageId) (server : Server) (root : PlanTree) : PlannedStage where
  stage := ⟨id, root⟩
  assignment := ((Assignment.empty id).add server none).2
  workers :=
    let sends := root.operator.receivers.foldl (fun sends receiver =>
      sends.insert receiver [Mailbox.onServer server (Id.ofNat 0)]) ∅
    (∅ : WorkerMap WorkerLinks).insert (Id.ofNat 0) ⟨Id.ofNat 0, server, sends, ∅⟩

/-- The root stage receives from stage 1, and the stages 1 and 2 receive from one
another. All of them run on one server. -/
def circle : StageGraph :=
  let server := Server.onHost "server" 8421 8422
  let receive (node stage sender : Nat) : PlanTree :=
    ⟨Id.ofNat node, Id.ofNat stage, .receive ⟨Id.ofNat sender, .singleton⟩, []⟩
  let send (node stage : Nat) (receivers : List Nat) (input : PlanTree) : PlanTree :=
    ⟨Id.ofNat node, Id.ofNat stage, .send ⟨receivers.map Id.ofNat, .singleton, []⟩, [input]⟩
  let stages := [receive 0 0 1, send 1 1 [0, 2] (receive 2 1 2), send 3 2 [1] (receive 4 2 1)]
  ⟨rootStageId, stages.foldl (fun stages root =>
    stages.insert root.stage (lonePlanned root.stage server root)) ∅⟩

/-- The circle passes the check. -/
theorem check_circle : circle.check = .ok () := by rfl

theorem circle_receives : circle.ReceivesFrom (Id.ofNat 1) (Id.ofNat 2) ∧
    circle.ReceivesFrom (Id.ofNat 2) (Id.ofNat 1) :=
  ⟨(receivesFrom_iff rfl).mpr (by decide), (receivesFrom_iff rfl).mpr (by decide)⟩

end StageGraph

namespace DispatchPlan

/-- **When a plan can be explained**: exactly if no stage lies below itself. Where one
does, following the plan never ends, whatever the bound on the borders crossed. -/
theorem explain_ok_iff_acyclic (plan : DispatchPlan) :
    ((∃ text, plan.explain = .ok text) ↔ plan.Acyclic) ∧
      (¬plan.Acyclic → ∀ borders, plan.outlineRoot borders = .error .endless) := by
  rw [explain]
  rcases plan.wellFormed with hempty | hwf
  · have hacyclic : plan.Acyclic := fun stage hcycle => by
      obtain ⟨next, ⟨planned, hplanned, -⟩, -⟩ := Relation.TransGen.head'_iff.mp hcycle
      exact StageGraph.stages_ne_empty hplanned hempty
    rw [if_pos (StageGraph.isEmpty_eq_true.mpr hempty)]
    exact ⟨iff_of_true ⟨_, rfl⟩ hacyclic, fun h => absurd hacyclic h⟩
  · obtain ⟨planned, hplanned, -⟩ := hwf.root
    rw [if_neg (mt StageGraph.isEmpty_eq_true.mp (StageGraph.stages_ne_empty hplanned))]
    by_cases hacyclic : plan.Acyclic
    · obtain ⟨outline, houtline⟩ := StageGraph.exists_outlineRoot hwf hacyclic
      refine ⟨iff_of_true ⟨outline.text, ?_⟩ hacyclic, fun h => absurd hacyclic h⟩
      rw [depthBound, houtline]
      rfl
    · obtain ⟨looping, hcycle⟩ : ∃ looping,
          Relation.TransGen plan.ReceivesFrom looping looping := by
        simpa [StageGraph.Acyclic] using hacyclic
      have hend := StageGraph.outlineRoot_endless hwf hcycle
      refine ⟨iff_of_false ?_ hacyclic, fun _ => hend⟩
      rintro ⟨text, htext⟩
      rw [hend] at htext
      exact nomatch htext

/-- The circle is a plan, two of its stages receive from one another, and following it
never ends. -/
theorem circle_endless :
    ∃ plan, ofGraph .circle = .ok plan ∧
      plan.ReceivesFrom (Id.ofNat 1) (Id.ofNat 2) ∧ plan.ReceivesFrom (Id.ofNat 2) (Id.ofNat 1) ∧
      ∀ borders, plan.outlineRoot borders = .error .endless := by
  have hcycle : Relation.TransGen StageGraph.circle.ReceivesFrom (Id.ofNat 1) (Id.ofNat 1) :=
    .tail (.single StageGraph.circle_receives.1) StageGraph.circle_receives.2
  refine ⟨⟨.circle, StageGraph.check_circle⟩, ofGraph_eq_ok.mpr rfl,
    StageGraph.circle_receives.1, StageGraph.circle_receives.2, ?_⟩
  refine StageGraph.outlineRoot_endless ?_ hcycle
  obtain ⟨planned, hplanned, -⟩ := StageGraph.circle_receives.1
  exact (StageGraph.check_eq_ok_iff.mp StageGraph.check_circle).resolve_left
    (StageGraph.stages_ne_empty hplanned)

end DispatchPlan

end StagedQuery
