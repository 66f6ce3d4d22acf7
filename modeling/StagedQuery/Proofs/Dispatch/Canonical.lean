import StagedQuery.Proofs.Dispatch.Distinct

/-!
# The order of what a plan stores

What a plan stores of its borders has one way in which it should be written
(`StagedQuery.StageGraph.Canonical`): the receivers of a send ascend and none is repeated, and
every list of mailboxes that a worker has, for a stage it sends to or one it receives from, is in
the order of mailboxes. Plans that are made are written in this way
(`StagedQuery.Planner.canonical`).

A plan that was read from a file need not be. The check sees to some of it
(`StagedQuery.PlannedStage.Ordered`): receivers do not descend, and the lists for stages that a
send names are there and in order. It lets a receiver be repeated, and it does not look at the
lists for stages that no send names, nor at those for stages that are received from
(`StagedQuery.StageGraph.check_untidy`). **These three are all that can be wrong**: a plan is
written as it should be exactly if they are right (`StagedQuery.PlannedStage.Tidy`,
`StagedQuery.DispatchPlan.canonical_iff`).
-/

namespace StagedQuery

/-! ### One stage -/

namespace PlannedStage

/-- **The stage is written as it should be.** -/
structure Canonical (planned : PlannedStage) : Prop where
  /-- The receivers of a send ascend, and none is repeated. -/
  receivers : ∀ node ∈ planned.stage.root.nodes, ∀ send, node.operator = .send send →
    send.receivers.Pairwise fun a b => a.number < b.number
  /-- The mailboxes that a worker has for a stage to send to are in order. -/
  sends : ∀ (worker : WorkerId) (links : WorkerLinks), planned.workers[worker]? = some links →
    ∀ (receiver : StageId) (mailboxes : List Mailbox), links.sends[receiver]? = some mailboxes →
      mailboxes.Pairwise Mailbox.AtOrBefore
  /-- The mailboxes that a worker has for a stage to receive from are in order. -/
  receives : ∀ (worker : WorkerId) (links : WorkerLinks), planned.workers[worker]? = some links →
    ∀ (sender : StageId) (mailboxes : List Mailbox), links.receives[sender]? = some mailboxes →
      mailboxes.Pairwise Mailbox.AtOrBefore

/-- **What the check sees to.** -/
structure Ordered (planned : PlannedStage) : Prop where
  /-- A send is the root of the stage. -/
  root : ∀ node ∈ planned.stage.root.nodes, ∀ send, node.operator = .send send →
    send.receivers = planned.stage.receivers
  /-- The receivers do not descend. -/
  ascending : planned.stage.receivers.Pairwise fun a b => a.number ≤ b.number
  /-- Each worker has mailboxes for each receiver, in order. -/
  sends : ∀ (worker : WorkerId) (links : WorkerLinks), planned.workers[worker]? = some links →
    ∀ receiver ∈ planned.stage.receivers, ∃ mailboxes, links.sends[receiver]? = some mailboxes ∧
      mailboxes ≠ [] ∧ mailboxes.Pairwise Mailbox.AtOrBefore

/-- **What the check does not look at** is right. -/
structure Tidy (planned : PlannedStage) : Prop where
  /-- No receiver is repeated. -/
  distinct : planned.stage.receivers.Nodup
  /-- The mailboxes that a worker has for stages which are no receivers are in order. -/
  strays : ∀ (worker : WorkerId) (links : WorkerLinks), planned.workers[worker]? = some links →
    ∀ receiver ∉ planned.stage.receivers, ∀ mailboxes, links.sends[receiver]? = some mailboxes →
      mailboxes.Pairwise Mailbox.AtOrBefore
  /-- The mailboxes that a worker has for stages to receive from are in order. -/
  receives : ∀ (worker : WorkerId) (links : WorkerLinks), planned.workers[worker]? = some links →
    ∀ (sender : StageId) (mailboxes : List Mailbox), links.receives[sender]? = some mailboxes →
      mailboxes.Pairwise Mailbox.AtOrBefore

variable {planned : PlannedStage}

/-- **A stage that passed the check is written as it should be** exactly if what the check does
not look at is right. -/
theorem Ordered.canonical_iff_tidy (ordered : planned.Ordered) :
    planned.Canonical ↔ planned.Tidy := by
  constructor
  · rintro ⟨hreceivers, hsends, hreceives⟩
    refine ⟨?_, fun worker links hlinks receiver _ mailboxes => ?_, hreceives⟩
    · rw [Stage.receivers]
      cases hop : planned.stage.root.operator with
      | send send =>
        have hascend := hreceivers _ (PlanTree.self_mem_nodes _) send hop
        refine List.Pairwise.imp ?_ hascend
        rintro a b hlt rfl
        exact UInt32.lt_irrefl _ hlt
      | _ => exact List.nodup_nil
    · exact hsends worker links hlinks receiver mailboxes
  · rintro ⟨hdistinct, hstrays, hreceives⟩
    refine ⟨fun node hnode send hsend => ?_, fun worker links hlinks receiver mailboxes h => ?_,
      hreceives⟩
    · rw [ordered.root node hnode send hsend]
      refine (ordered.ascending.and hdistinct).imp ?_
      rintro ⟨a⟩ ⟨b⟩ ⟨hle, hne⟩
      exact UInt32.lt_of_le_of_ne hle fun heq => hne (congrArg Id.mk heq)
    · by_cases hmem : receiver ∈ planned.stage.receivers
      · obtain ⟨found, hfound, -, hordered⟩ := ordered.sends worker links hlinks receiver hmem
        obtain rfl : mailboxes = found := Option.some.inj (h.symm.trans hfound)
        exact hordered
      · exact hstrays worker links hlinks receiver hmem mailboxes h

end PlannedStage

namespace StageGraph

variable {graph : StageGraph} {id : StageId} {planned : PlannedStage}

/-- What a sound stage stores of the stages that it sends to is in order. -/
theorem StageSound.ordered (sound : graph.StageSound id planned) : planned.Ordered := by
  refine ⟨fun node hnode send hsend => ?_, ?_, fun worker links hlinks receiver hreceiver => ?_⟩
  · rcases PlanTree.mem_nodes.mp hnode with rfl | ⟨input, hinput, hbelow⟩
    · rw [Stage.receivers, hsend]
      rfl
    · exact absurd hsend (sound.unburied input hinput node hbelow send)
  · rw [Stage.receivers]
    cases hop : planned.stage.root.operator with
    | send send => exact (sound.receivers send hop).ascending
    | _ => exact .nil
  · obtain ⟨mailboxes, hmailboxes, hne, hordered⟩ :=
      (sound.workers worker links hlinks).sends receiver hreceiver
    exact ⟨mailboxes, hmailboxes, hne, hordered.imp Mailbox.isLE_compare.mp⟩

/-- **The graph is written as it should be.** -/
def Canonical (graph : StageGraph) : Prop :=
  ∀ (id : StageId) (planned : PlannedStage), graph.stages[id]? = some planned → planned.Canonical

end StageGraph

/-! ### Plans -/

/-- A stage of a plan stores in order what the check sees to. -/
theorem DispatchPlan.ordered (plan : DispatchPlan) {id : StageId} {planned : PlannedStage}
    (h : plan.stages[id]? = some planned) : planned.Ordered :=
  ((plan.wellFormed_of_stage h).stages id planned h).ordered

/-- **How the data of a plan is ordered.** In every plan the receivers of a send do not descend
and the mailboxes for them are there and in order. The plan is written as it should be exactly if
besides no receiver is repeated and the mailboxes for all other stages, those that are sent to and
those that are received from, are in order, too. -/
theorem DispatchPlan.canonical_iff (plan : DispatchPlan) :
    (∀ (id : StageId) (planned : PlannedStage), plan.stages[id]? = some planned →
      planned.Ordered) ∧
    (plan.Canonical ↔ ∀ (id : StageId) (planned : PlannedStage),
      plan.stages[id]? = some planned → planned.Tidy) :=
  ⟨fun _ _ h => plan.ordered h, forall_congr' fun _ => forall_congr' fun _ =>
    forall_congr' fun h => (plan.ordered h).canonical_iff_tidy⟩

namespace StageGraph

/-- A plan of two stages that is not written as it should be: stage 1 names its receiver twice,
its worker has mailboxes for a stage that it does not send to, and the worker of the root stage
has mailboxes for stage 1; both of these lists are out of order. -/
def untidy : StageGraph :=
  let server := Server.onHost "server" 8421 8422
  let mailbox (port : UInt16) : Mailbox := ⟨"server", port, Id.ofNat 0⟩
  let result := PlanTree.mk (Id.ofNat 0) rootStageId (.receive ⟨Id.ofNat 1, .singleton⟩) []
  let rows := PlanTree.mk (Id.ofNat 2) (Id.ofNat 1) (.values [["1"]]) []
  let producer : Send := ⟨[rootStageId, rootStageId], .singleton, []⟩
  let planned (id : StageId) (root : PlanTree) (sends receives : StageMap (List Mailbox)) :
      PlannedStage :=
    { stage := ⟨id, root⟩
      assignment := ((Assignment.empty id).add server none).2
      workers := (∅ : WorkerMap WorkerLinks).insert (Id.ofNat 0)
        ⟨Id.ofNat 0, server, sends, receives⟩ }
  let descending := [mailbox 8422, mailbox 1]
  ⟨rootStageId, ((∅ : StageMap PlannedStage).insert rootStageId
    (planned rootStageId result ∅ ((∅ : StageMap (List Mailbox)).insert (Id.ofNat 1) descending))
    ).insert (Id.ofNat 1)
      (planned (Id.ofNat 1) ⟨Id.ofNat 1, Id.ofNat 1, .send producer, [rows]⟩
        (((∅ : StageMap (List Mailbox)).insert rootStageId [mailbox 8422]).insert (Id.ofNat 7)
          descending) ∅)⟩

/-- The plan passes the check. -/
theorem check_untidy : untidy.check = .ok () := by rfl

end StageGraph

/-- Each of the three things that the check does not look at is wrong with the plan. -/
theorem DispatchPlan.untidy_not_canonical : ∃ (plan : DispatchPlan) (root sender : PlannedStage)
    (told teller : WorkerLinks), ofGraph .untidy = .ok plan ∧
      plan.stages[rootStageId]? = some root ∧ plan.stages[(Id.ofNat 1 : StageId)]? = some sender ∧
      root.workers[(Id.ofNat 0 : WorkerId)]? = some told ∧
      sender.workers[(Id.ofNat 0 : WorkerId)]? = some teller ∧
      sender.stage.receivers = [rootStageId, rootStageId] ∧
      (told.receives[(Id.ofNat 1 : StageId)]?).map (·.map (·.port)) = some [8422, 1] ∧
      (teller.sends[(Id.ofNat 7 : StageId)]?).map (·.map (·.port)) = some [8422, 1] ∧
      ¬plan.Canonical := by
  refine ⟨⟨.untidy, StageGraph.check_untidy⟩, _, _, _, _, ofGraph_eq_ok.mpr rfl, rfl, rfl, rfl,
    rfl, rfl, rfl, rfl, fun hcanonical => ?_⟩
  have hascend := (hcanonical (Id.ofNat 1) _ rfl).receivers _ (PlanTree.self_mem_nodes _) _ rfl
  exact absurd hascend (by decide)

/-! ### Plans that were made -/

/-- The mailboxes that a worker knows in a plan that was made are those of an assignment. -/
theorem Planner.exists_listed_of_plan {planner : Planner} {root : PlanTree} {cluster : Cluster}
    {plan : DispatchPlan} (h : planner.plan root cluster = .ok plan) (id : StageId)
    (planned : PlannedStage) (hplanned : plan.stages[id]? = some planned) (worker : WorkerId)
    (links : WorkerLinks) (hlinks : planned.workers[worker]? = some links) :
    (∀ (receiver : StageId) (mailboxes : List Mailbox), links.sends[receiver]? = some mailboxes →
      ∃ assignment : Assignment, assignment.mailboxes = mailboxes) ∧
    ∀ (sender : StageId) (mailboxes : List Mailbox), links.receives[sender]? = some mailboxes →
      ∃ assignment : Assignment, assignment.mailboxes = mailboxes := by
  obtain ⟨stages, assignments, hwired⟩ := exists_wiredFrom h
  have hworker := hwired.knows id planned hplanned worker links hlinks
  refine ⟨fun receiver mailboxes hmailboxes => ?_, fun sender mailboxes hmailboxes => ?_⟩
  · rw [hworker.sends] at hmailboxes
    split_ifs at hmailboxes
    obtain ⟨other, -, hother⟩ := Option.map_eq_some_iff.mp hmailboxes
    exact ⟨other, hother⟩
  · rw [hworker.receives] at hmailboxes
    split_ifs at hmailboxes
    obtain ⟨other, -, hother⟩ := Option.map_eq_some_iff.mp hmailboxes
    exact ⟨other, hother⟩

/-- **A plan that was made is written as it should be.** -/
theorem Planner.canonical {planner : Planner} {root : PlanTree} {cluster : Cluster}
    {plan : DispatchPlan} (h : planner.plan root cluster = .ok plan) : plan.Canonical := by
  obtain ⟨joined, hbuilt, hgraph, -⟩ := exists_built h
  have hknown := exists_listed_of_plan h
  intro id planned hplanned
  refine (plan.ordered hplanned).canonical_iff_tidy.mpr ⟨?_,
    fun worker links hlinks receiver _ mailboxes hmailboxes => ?_,
    fun worker links hlinks sender mailboxes hmailboxes => ?_⟩
  · rw [hgraph, hbuilt.getElem?_eq_some] at hplanned
    rw [Stage.receivers]
    cases hop : planned.stage.root.operator with
    | send send =>
      obtain ⟨holder, -, hreceivers, -⟩ :=
        PlanTree.send_of_fragments hbuilt.cuttable (hbuilt.stage_mem hplanned.1) hop
      change send.receivers.Nodup
      rw [hreceivers]
      exact List.nodup_singleton _
    | _ => exact List.nodup_nil
  · obtain ⟨assignment, rfl⟩ := (hknown id planned hplanned worker links hlinks).1 _ _ hmailboxes
    exact assignment.listedAs_mailboxes.ordered
  · obtain ⟨assignment, rfl⟩ := (hknown id planned hplanned worker links hlinks).2 _ _ hmailboxes
    exact assignment.listedAs_mailboxes.ordered

end StagedQuery
