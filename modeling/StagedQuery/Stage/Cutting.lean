import StagedQuery.Stage

/-!
# Cutting a plan into stages

`StagedQuery.toStages` cuts a plan tree at its exchanges. An exchange becomes a
receive, a leaf of the stage above it, and a send, the root of a new stage that
holds what was below it. Stage 0 is always a single receive from stage 1, whose
root is a send over the root of the query, so that the result of the query
arrives at one place.

Ids are handed out in pre-order: a receive is numbered before the send it is fed
by, and a stage when its receive is reached. The ids that the input tree carries
are ignored, except that a complaint about one of its nodes names them.

The work is done by `StagedQuery.PlanTree.cut`, which returns the part of the
tree that stays in the current stage and records the stages below it in a
`StagedQuery.Cuts`.
-/

namespace StagedQuery

/-- The stages that have been cut off so far, and the ids to hand out next. -/
structure Cuts where
  /-- The number of the next stage. -/
  nextStage : Nat
  /-- The number of the next node. -/
  nextNode : Nat
  /-- The finished stages. -/
  stages : StageMap Stage

namespace Cuts

/-- Nothing has been cut off and no id handed out. -/
def none : Cuts := ⟨0, 0, ∅⟩

/-- Hands out a stage id. -/
def takeStage (cuts : Cuts) : StageId × Cuts :=
  (Id.ofNat cuts.nextStage, { cuts with nextStage := cuts.nextStage + 1 })

/-- Hands out a node id. -/
def takeNode (cuts : Cuts) : NodeId × Cuts :=
  (Id.ofNat cuts.nextNode, { cuts with nextNode := cuts.nextNode + 1 })

/-- Records a finished stage. -/
def close (cuts : Cuts) (id : StageId) (root : PlanTree) : Cuts :=
  { cuts with stages := cuts.stages.insert id ⟨id, root⟩ }

end Cuts

namespace PlanTree

mutual

/-- The part of a tree that stays in `stage`, after everything below its
exchanges has been cut off. -/
def cut (stage : StageId) : PlanTree → Cuts → Except PlanError (PlanTree × Cuts)
  | ⟨id, claimed, operator, inputs⟩, cuts =>
    match checkInputCount ⟨id, claimed, operator, inputs⟩ with
    | .error fault => .error fault
    | .ok () =>
      match operator with
      | .exchange distribution keys =>
        let (receiveId, cuts) := cuts.takeNode
        let (sender, cuts) := cuts.takeStage
        let (sendId, cuts) := cuts.takeNode
        match cutList sender inputs cuts with
        | .error fault => .error fault
        | .ok (below, cuts) =>
          let send := .send ⟨[stage], distribution, keys⟩
          .ok (⟨receiveId, stage, .receive ⟨sender, distribution⟩, []⟩,
            cuts.close sender ⟨sendId, sender, send, below⟩)
      | .send _ | .receive _ => .error (.planning .alreadyCut)
      | operator =>
        let (nodeId, cuts) := cuts.takeNode
        match cutList stage inputs cuts with
        | .error fault => .error fault
        | .ok (inputs, cuts) => .ok (⟨nodeId, stage, operator, inputs⟩, cuts)

/-- The parts of several trees that stay in `stage`, cut from left to right. -/
def cutList (stage : StageId) : List PlanTree → Cuts → Except PlanError (List PlanTree × Cuts)
  | [], cuts => .ok ([], cuts)
  | node :: rest, cuts =>
    match cut stage node cuts with
    | .error fault => .error fault
    | .ok (node, cuts) =>
      match cutList stage rest cuts with
      | .error fault => .error fault
      | .ok (rest, cuts) => .ok (node :: rest, cuts)

end

end PlanTree

/-- **The stages of a plan**, in the order of their ids. -/
def toStages (root : PlanTree) : Except PlanError (List Stage) :=
  let (rootStage, cuts) := Cuts.none.takeStage
  let (receiveId, cuts) := cuts.takeNode
  let (planStage, cuts) := cuts.takeStage
  let (sendId, cuts) := cuts.takeNode
  match root.cut planStage cuts with
  | .error fault => .error fault
  | .ok (below, cuts) =>
    let send := .send ⟨[rootStage], .singleton, []⟩
    let cuts := cuts.close planStage ⟨sendId, planStage, send, [below]⟩
    let receive := .receive ⟨planStage, .singleton⟩
    let cuts := cuts.close rootStage ⟨receiveId, rootStage, receive, []⟩
    .ok (cuts.stages.toList.map (·.2))

end StagedQuery
