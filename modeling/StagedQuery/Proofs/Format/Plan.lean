import StagedQuery.Proofs.Json.StandsFor
import StagedQuery.Proofs.Plan.Nodes

/-!
# Plan trees and stages as JSON

What is written for an operator stands for it, one kind of operator after the other
(`StagedQuery.Operator.standsFor_parameters`). A node takes two levels, its own and that of its
inputs, and its operator takes two of its own: it is named in one and described in the next. So
the reader of trees, which is given less room for the inputs than for the operator, finds what it
needs exactly where the levels of the whole fit.
-/

namespace StagedQuery

open Json

/-! ### The parameters of operators -/

theorem AggregatePhase.standsFor_name (phase : AggregatePhase) :
    StandsFor (constant? ofName?) (ofString phase.name) phase :=
  .constant (by cases phase <;> rfl)

theorem SetOperation.standsFor_name (operation : SetOperation) :
    StandsFor (constant? ofName?) (ofString operation.name) operation :=
  .constant (by cases operation <;> rfl)

theorem JoinKind.standsFor_name (type : JoinKind) :
    StandsFor (constant? ofName?) (ofString type.name) type :=
  .constant (by cases type <;> rfl)

theorem Distribution.standsFor_name (distribution : Distribution) :
    StandsFor (constant? ofName?) (ofString distribution.name) distribution :=
  .constant (by cases distribution <;> rfl)

theorem Send.standsFor (send : Send) : StandsFor ofJson? send.toJson send := by
  have hreceivers := standsFor_ofIds send.receivers
  have hdistribution := send.distribution.standsFor_name
  have hkeys := standsFor_ofTexts send.keys
  refine .record (by decide) rfl ?_ fun room b => ?_
  · simp [hreceivers.written, hdistribution.written, hkeys.written]
  · simp [hreceivers.read_iff, hdistribution.read_iff, hkeys.read_iff, Option.bind_eq_some_iff,
      and_assoc]

theorem Receive.standsFor (receive : Receive) : StandsFor ofJson? receive.toJson receive := by
  have hdistribution := receive.distribution.standsFor_name
  refine .record (by decide) rfl ?_ fun room b => ?_
  · simp [written_ofId, hdistribution.written]
  · simp [hdistribution.read_iff, Option.bind_eq_some_iff]

namespace Operator

/-- **The parameters of an operator** stand for it, as the reader for its kind takes them. -/
theorem standsFor_parameters (operator : Operator) : ∃ read,
    parametersReader? operator.name = some read ∧
      StandsFor read operator.parameters operator := by
  cases operator with
  | tableScan table columns =>
    have hcolumns := standsFor_ofTexts columns
    refine ⟨_, rfl, .record (by decide) rfl ?_ fun room b => ?_⟩
    · simp [Written.string, hcolumns.written]
    · simp [hcolumns.read_iff, Option.bind_eq_some_iff]
  | values rows =>
    have hrows : StandsFor (list? texts?) (ofList ofTexts rows) rows := .list standsFor_ofTexts
    refine ⟨_, rfl, .record (by decide) rfl ?_ fun room b => ?_⟩
    · simp [hrows.written]
    · simp [hrows.read_iff, Option.bind_eq_some_iff]
  | filter condition =>
    refine ⟨_, rfl, .record (by decide) rfl ?_ fun room b => ?_⟩
    · simp [Written.string]
    · simp
  | project expressions =>
    have hexpressions := standsFor_ofTexts expressions
    refine ⟨_, rfl, .record (by decide) rfl ?_ fun room b => ?_⟩
    · simp [hexpressions.written]
    · simp [hexpressions.read_iff, Option.bind_eq_some_iff]
  | aggregate groupKeys calls phase =>
    have hkeys := standsFor_ofTexts groupKeys
    have hcalls := standsFor_ofTexts calls
    have hphase := phase.standsFor_name
    refine ⟨_, rfl, .record (by decide) rfl ?_ fun room b => ?_⟩
    · simp [hkeys.written, hcalls.written, hphase.written]
    · simp [hkeys.read_iff, hcalls.read_iff, hphase.read_iff, Option.bind_eq_some_iff, and_assoc]
  | window partitionKeys orderKeys calls =>
    have hpartition := standsFor_ofTexts partitionKeys
    have horder := standsFor_ofTexts orderKeys
    have hcalls := standsFor_ofTexts calls
    refine ⟨_, rfl, .record (by decide) rfl ?_ fun room b => ?_⟩
    · simp [hpartition.written, horder.written, hcalls.written]
    · simp [hpartition.read_iff, horder.read_iff, hcalls.read_iff, Option.bind_eq_some_iff,
        and_assoc]
  | sort collations fetch offset =>
    have hcollations := standsFor_ofTexts collations
    refine ⟨_, rfl, .record (by decide) rfl ?_ fun room b => ?_⟩
    · simp [hcollations.written, written_ofOption]
    · simp [hcollations.read_iff, optionalField?, Option.bind_eq_some_iff]
  | setOperation operation all =>
    have hoperation := operation.standsFor_name
    refine ⟨_, rfl, .record (by decide) rfl ?_ fun room b => ?_⟩
    · simp [hoperation.written, Written.bool]
    · simp [hoperation.read_iff, bool?, Option.bind_eq_some_iff]
  | join type on =>
    have htype := type.standsFor_name
    have hon : StandsFor (list? textPair?) (ofList ofTextPair on) on := .list standsFor_ofTextPair
    refine ⟨_, rfl, .record (by decide) rfl ?_ fun room b => ?_⟩
    · simp [htype.written, hon.written]
    · simp [htype.read_iff, hon.read_iff, Option.bind_eq_some_iff, and_assoc]
  | send producer =>
    have hproducer := producer.standsFor
    refine ⟨_, rfl, hproducer.written, fun room b => ?_⟩
    simp [parameters, hproducer.read_iff]
  | receive consumer =>
    have hconsumer := consumer.standsFor
    refine ⟨_, rfl, hconsumer.written, fun room b => ?_⟩
    simp [parameters, hconsumer.read_iff]
  | explained title attributes =>
    have hattributes : StandsFor (textMap? fun _ => text?) (ofTextMap ofString attributes)
        attributes := .textMap standsFor_ofString
    refine ⟨_, rfl, .record (by decide) rfl ?_ fun room b => ?_⟩
    · simp [Written.string, hattributes.written]
    · simp [hattributes.read_iff, fieldOr?, Option.bind_eq_some_iff]
  | exchange distribution keys =>
    have hdistribution := distribution.standsFor_name
    have hkeys := standsFor_ofTexts keys
    refine ⟨_, rfl, .record (by decide) rfl ?_ fun room b => ?_⟩
    · simp [hdistribution.written, hkeys.written]
    · simp [hdistribution.read_iff, hkeys.read_iff, Option.bind_eq_some_iff, and_assoc]

/-- The name of an operator is written as it is. -/
theorem escape_name (operator : Operator) :
    escape operator.name.toList = operator.name.toList := by
  cases operator <;> (simp only [name]; decide)

/-- **What is written for an operator** stands for it. -/
theorem standsFor (operator : Operator) : StandsFor ofJson? operator.toJson operator := by
  obtain ⟨read, hread, hparameters⟩ := operator.standsFor_parameters
  refine ⟨.object ?_ ?_, fun room b => ?_⟩
  · exact List.forall_mem_singleton.mpr (writtenBody_of_plain operator.escape_name)
  · exact List.forall_mem_singleton.mpr hparameters.written
  · rw [toJson]
    cases room with
    | zero => exact iff_of_false nofun fun hle => not_levels_object_le _ hle.1
    | succ room =>
      rw [ofJson?, variant?_ofFields operator.escape_name, ofFields, levels_object_le,
        List.forall_mem_singleton]
      simp [hread, hparameters.read_iff]

end Operator

/-! ### Trees and stages -/

namespace PlanTree

theorem toJsonList_eq (trees : List PlanTree) : toJsonList trees = trees.map toJson := by
  induction trees with
  | nil => rfl
  | cons tree rest ih => rw [toJsonList, List.map_cons, ih]

/-- What is written for a node holds its operator in one level and its inputs in two. -/
theorem levels_toJson (id : NodeId) (stage : StageId) (operator : Operator)
    (inputs : List PlanTree) : (toJson ⟨id, stage, operator, inputs⟩).levels =
      max operator.toJson.levels (levelsOfItems (inputs.map toJson) + 1) + 1 := by
  simp [toJson, ofFields, levels, levelsOfMembers, toJsonList_eq]

/-- **What is written for a plan tree** stands for it. -/
theorem standsFor (tree : PlanTree) : StandsFor ofJson? tree.toJson tree := by
  have hnames : FieldNames ["id", "stage_id", "kind", "inputs"] := by decide
  induction tree with
  | node id stage operator inputs ih =>
    have hoperator := operator.standsFor
    refine ⟨.object (fun member hmember => ?_) ?_, fun room b => ?_⟩
    · exact writtenBody_of_plain (hnames.2 _ (List.mem_map_of_mem hmember))
    · have hinputs : Written (.array (toJsonList inputs)) := .array fun json hjson => by
        rw [toJsonList_eq] at hjson
        obtain ⟨input, hinput, rfl⟩ := List.mem_map.mp hjson
        exact (ih input hinput).written
      simp [written_ofId, hoperator.written, hinputs]
    · have hlevels := levels_toJson id stage operator inputs
      match room with
      | 0 => exact iff_of_false nofun fun hle => by omega
      | 1 => exact iff_of_false nofun fun hle => by omega
      | room + 2 =>
        have hfits : (toJson ⟨id, stage, operator, inputs⟩).levels ≤ room + 2 ↔
            operator.toJson.levels ≤ room + 1 ∧ ∀ input ∈ inputs, input.toJson.levels ≤ room := by
          rw [hlevels, Nat.add_le_add_iff_right, Nat.max_le, Nat.add_le_add_iff_right,
            levelsOfItems_le, List.forall_mem_map]
        have hread {results : List PlanTree} :
            (inputs.map toJson).mapM (ofJson? room) = some results ↔
              (∀ input ∈ inputs, input.toJson.levels ≤ room) ∧ inputs = results :=
          mapM_eq_some_iff fun input hinput => (ih input hinput).read_iff room
        have hrecord : record? ["id", "stage_id", "kind", "inputs"] 4
            (toJson ⟨id, stage, operator, inputs⟩) = some [some (ofId id), some (ofId stage),
              some operator.toJson, some (.array (inputs.map toJson))] := by
          rw [toJson, toJsonList_eq]
          exact record?_ofFields (by exact hnames) 4
        rw [hfits, ofJson?, hrecord]
        simp [hoperator.read_iff, hread, Option.bind_eq_some_iff, and_assoc, -List.mapM_map]

end PlanTree

theorem Stage.standsFor (stage : Stage) : StandsFor ofJson? stage.toJson stage := by
  have hroot := stage.root.standsFor
  refine .record (by decide) rfl ?_ fun room b => ?_
  · simp [written_ofId, hroot.written]
  · simp [hroot.read_iff, Option.bind_eq_some_iff]

end StagedQuery
