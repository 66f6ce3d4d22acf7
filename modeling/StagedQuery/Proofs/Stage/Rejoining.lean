import StagedQuery.Plan.Build
import StagedQuery.Proofs.Stage.Layout

/-!
# Putting the stages together again

Cutting a query loses nothing: with the stages at hand, every receive can be replaced by
the exchange it came from (`StagedQuery.rejoin`), and what comes out is the query, up to
the ids that its nodes carry (`StagedQuery.toStages_rejoin`). The ids are not part of
what is claimed, since cutting hands out its own and ignores those of the query.

The exchange behind a receive is read off the stage that the receive names: it has the
distribution and the keys of the send at the root of the stage, and its inputs are those
of the send, put together in their turn. A receive knows the distribution, too, and it is
the same.

Putting together follows receives from stage to stage, so it comes with a bound on how
many of them lie below one another (`StagedQuery.behind`); there are never more than
exchanges in the query.
-/

namespace StagedQuery

namespace PlanTree

/-! ### Trees apart from ids -/

mutual

/-- The tree with zeros for all ids. -/
def withoutIds : PlanTree → PlanTree
  | ⟨_, _, operator, inputs⟩ => unplaced operator (withoutIdsList inputs)

/-- Several trees with zeros for all ids. -/
def withoutIdsList : List PlanTree → List PlanTree
  | [] => []
  | node :: rest => withoutIds node :: withoutIdsList rest

end

/-! ### Replacing receives -/

mutual

/-- The tree with every receive replaced by what `enter` gives for the stage that it
names. -/
def replaceReceives (enter : StageId → Option PlanTree) : PlanTree → Option PlanTree
  | ⟨id, stage, operator, inputs⟩ =>
    match operator with
    | .receive receive => enter receive.sender
    | operator =>
      (replaceReceivesIn enter inputs).map fun inputs => ⟨id, stage, operator, inputs⟩

/-- Several trees with every receive replaced. -/
def replaceReceivesIn (enter : StageId → Option PlanTree) : List PlanTree → Option (List PlanTree)
  | [] => some []
  | node :: rest => do
    let node ← replaceReceives enter node
    let rest ← replaceReceivesIn enter rest
    return node :: rest

end

theorem replaceReceives_inner (enter : StageId → Option PlanTree) (id : NodeId) (stage : StageId)
    {operator : Operator} (inputs : List PlanTree)
    (h : ∀ receive, operator ≠ .receive receive) :
    replaceReceives enter ⟨id, stage, operator, inputs⟩ =
      (replaceReceivesIn enter inputs).map fun inputs => ⟨id, stage, operator, inputs⟩ := by
  rw [replaceReceives]
  exact h

end PlanTree

/-- **The exchange behind a receive** that names the stage `sender`: the send at the root
of the stage, over its inputs put together again. At most `borders` stages are followed,
one below the other. -/
def behind (stages : List Stage) : Nat → StageId → Option PlanTree
  | 0, _ => none
  | borders + 1, sender => do
    let stage ← stages.find? fun stage => stage.id == sender
    match stage.root with
    | ⟨id, holder, .send send, inputs⟩ =>
      let inputs ← PlanTree.replaceReceivesIn (behind stages borders) inputs
      return ⟨id, holder, .exchange send.distribution send.keys, inputs⟩
    | _ => none

/-- **The tree that a part of a stage stands for**: every receive in it is replaced by the
exchange behind it. -/
def rejoin (stages : List Stage) (node : PlanTree) : Option PlanTree :=
  node.replaceReceives (behind stages stages.length)

namespace PlanTree

/-- Putting together what has been cut gives back the tree that was cut, if all stages cut
off are at hand. -/
theorem replaceReceives_kept (stages : List Stage) :
    (∀ s k n tree, (∀ node ∈ tree.nodes, node.Cuttable) →
      (∀ stage ∈ opened s k n tree, stages.find? (fun other => other.id == stage.id) = some stage) →
      ∀ borders, exchangeCount tree.nodes ≤ borders →
      ∃ whole, replaceReceives (behind stages borders) (kept s k n tree) = some whole ∧
        whole.withoutIds = tree.withoutIds) ∧
    ∀ s k n inputs, (∀ node ∈ inputs.flatMap nodes, node.Cuttable) →
      (∀ stage ∈ openedList s k n inputs,
        stages.find? (fun other => other.id == stage.id) = some stage) →
      ∀ borders, exchangeCount (inputs.flatMap nodes) ≤ borders →
      ∃ wholes, replaceReceivesIn (behind stages borders) (keptList s k n inputs) = some wholes ∧
        withoutIdsList wholes = withoutIdsList inputs := by
  refine cutInduction
    (fun s k n id stage distribution keys inputs ih hcut hfind borders hborders => ?_)
    (fun s k n id stage operator inputs h ih hcut hfind borders hborders => ?_)
    (fun s k n _ _ borders _ => ?_)
    fun s k n node rest hnode hrest hcut hfind borders hborders => ?_
  · rw [exchangeCount_exchange] at hborders
    -- one border is used up, and one exchange fewer is left below it
    obtain ⟨borders, rfl⟩ := Nat.exists_eq_add_of_le' (Nat.le_of_add_left_le hborders)
    rw [opened_exchange, List.forall_mem_cons] at hfind
    obtain ⟨hstage, hbelow⟩ := hfind
    obtain ⟨wholes, hwholes, hsame⟩ := ih (forall_nodes_mk.mp hcut).2 hbelow borders (by omega)
    refine ⟨⟨Id.ofNat (n + 1), Id.ofNat k, .exchange distribution keys, wholes⟩, ?_, ?_⟩
    · rw [kept_exchange, replaceReceives, behind]
      exact (congrArg (Option.bind · _) hstage).trans (congrArg (Option.bind · _) hwholes)
    · rw [withoutIds, withoutIds, hsame]
  · obtain ⟨hroot, hinputs⟩ := forall_nodes_mk.mp hcut
    rw [exchangeCount_inner _ _ _ h] at hborders
    rw [opened_inner _ _ _ _ _ _ h] at hfind
    obtain ⟨wholes, hwholes, hsame⟩ := ih hinputs hfind borders hborders
    refine ⟨⟨Id.ofNat n, s, operator, wholes⟩, ?_, ?_⟩
    · rw [kept_inner _ _ _ _ _ _ h, replaceReceives_inner, hwholes]
      · rfl
      · exact hroot.ne_receive
    · rw [withoutIds, withoutIds, hsame]
  · rw [keptList]
    exact ⟨[], rfl, rfl⟩
  · rw [List.flatMap_cons, List.forall_mem_append] at hcut
    rw [openedList, List.forall_mem_append] at hfind
    rw [List.flatMap_cons, exchangeCount_append] at hborders
    obtain ⟨whole, hwhole, hsame⟩ := hnode hcut.1 hfind.1 borders (by omega)
    obtain ⟨wholes, hwholes, hsames⟩ := hrest hcut.2 hfind.2 borders (by omega)
    refine ⟨whole :: wholes, ?_, ?_⟩
    · rw [keptList, replaceReceivesIn, hwhole, hwholes]
      rfl
    · rw [withoutIdsList, withoutIdsList, hsame, hsames]

end PlanTree

/-! ### Putting a query together again -/

/-- Where the ids of stages are distinct, a stage is found under its id. -/
theorem find?_id_eq_some {stages : List Stage} (distinct : (stages.map (·.id)).Nodup)
    {stage : Stage} (h : stage ∈ stages) :
    stages.find? (fun other => other.id == stage.id) = some stage := by
  induction stages with
  | nil => exact nomatch h
  | cons first rest ih =>
    obtain ⟨hnew, hrest⟩ := List.nodup_cons.mp distinct
    rcases List.mem_cons.mp h with rfl | h
    · exact List.find?_cons_of_pos (beq_self_eq_true _)
    · have hne : first.id ≠ stage.id := fun heq =>
        hnew (List.mem_map.mpr ⟨stage, h, heq.symm⟩)
      rw [List.find?_cons_of_neg (by simpa using hne)]
      exact ih hrest h

/-- **Cutting a query loses nothing.** The first stage is the receive at which the result
arrives and the second one sends it there; what the second one holds below its send,
put together with the others, is the query up to ids. Every receive has the distribution
of the send that feeds it. -/
theorem toStages_rejoin {root : PlanTree} {stages : List Stage} (fits : root.FitsIds)
    (h : toStages root = .ok stages) :
    ∃ below rest,
      stages =
        ⟨Id.ofNat 0, ⟨Id.ofNat 0, Id.ofNat 0, .receive ⟨Id.ofNat 1, .singleton⟩, []⟩⟩ ::
        ⟨Id.ofNat 1,
          ⟨Id.ofNat 1, Id.ofNat 1, .send ⟨[Id.ofNat 0], .singleton, []⟩, [below]⟩⟩ :: rest ∧
      (∃ whole, rejoin stages below = some whole ∧ whole.withoutIds = root.withoutIds) ∧
      ∀ stage ∈ stages, ∀ node ∈ stage.root.nodes, ∀ receive,
        node.operator = .receive receive → ∃ sender ∈ stages, sender.id = receive.sender ∧
          ∃ send, sender.root.operator = .send send ∧
            send.distribution = receive.distribution := by
  obtain ⟨hcut, rfl⟩ := (toStages_eq_ok fits).mp h
  have hfragments : root.fragments = root.arrival ::
      PlanTree.stageOver rootStageId 1 0 .singleton [] [root] ::
      PlanTree.openedList (Id.ofNat 1) 2 2 [root] := by
    rw [PlanTree.fragments, PlanTree.collected, PlanTree.opened_exchange]
  refine ⟨PlanTree.kept (Id.ofNat 1) 2 2 root, PlanTree.openedList (Id.ofNat 1) 2 2 [root],
    ?_, ?_, fun stage hstage node hnode receive hreceive => ?_⟩
  · rw [hfragments, PlanTree.arrival, PlanTree.collected, PlanTree.kept_exchange,
      PlanTree.stageOver, PlanTree.keptList, PlanTree.keptList]
    rfl
  · have hdistinct := PlanTree.nodup_id_fragments fits
    refine (PlanTree.replaceReceives_kept root.fragments).1 _ _ _ _ hcut
      (fun stage hstage => find?_id_eq_some hdistinct ?_) _ ?_
    · rw [hfragments, PlanTree.openedList, PlanTree.openedList, List.append_nil]
      exact List.mem_cons_of_mem _ (List.mem_cons_of_mem _ hstage)
    · have hlength := congrArg List.length (PlanTree.map_id_fragments root)
      rw [List.length_map, List.length_map, List.length_range'] at hlength
      omega
  · obtain ⟨sender, hsender, hid, keys, hsend⟩ :=
      (PlanTree.fragments_sound hcut stage hstage node hnode).fed receive hreceive
    exact ⟨sender, hsender, hid, _, hsend, rfl⟩

/-- A query with one exchange below another. -/
def PlanTree.nestedExchanges : PlanTree :=
  .filter "x > 1" (.exchange .hash ["x"] (.exchange .random [] (.tableScan "t" ["x"])))

/-- A query is cut at both of two exchanges, one below the other, and put together
again. -/
theorem toStages_rejoin_nested : ∃ stages below whole,
    PlanTree.nestedExchanges.FitsIds ∧ toStages .nestedExchanges = .ok stages ∧
      stages.length = 4 ∧ rejoin stages below = some whole ∧
      whole.withoutIds = PlanTree.nestedExchanges.withoutIds := by
  have fits : PlanTree.nestedExchanges.FitsIds := by decide
  obtain ⟨below, rest, -, ⟨whole, hwhole, hsame⟩, -⟩ := toStages_rejoin fits rfl
  exact ⟨_, below, whole, fits, rfl, rfl, hwhole, hsame⟩

end StagedQuery
