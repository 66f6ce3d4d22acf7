import Std.Data.ExtTreeMap
import Std.Data.ExtTreeSet

/-!
# Typed identifiers

A distributed plan numbers three kinds of things: its stages, the workers that
run one stage, and the nodes of its trees. All three are 32-bit numbers, and
none may stand for another, so `StagedQuery.Id` is one type of numbers indexed
by what it names.

Ids order by number (`StagedQuery.Id.compare_eq`), and two ids that compare
equal are equal, so maps keyed by ids (`StagedQuery.IdMap`) are equal as soon
as they hold the same entries.
-/

namespace StagedQuery

/-- What an identifier names. -/
inductive Named where
  /-- A stage of a plan. -/
  | stage
  /-- A worker; its id is local to one stage. -/
  | worker
  /-- A node of a plan tree. -/
  | node
  deriving DecidableEq, Repr

/-- A 32-bit number that names a thing of the kind `what`. -/
structure Id (what : Named) where
  /-- The number itself. -/
  number : UInt32
  deriving DecidableEq, Repr

/-- The id of a stage. -/
abbrev StageId := Id .stage

/-- The id of a worker within its stage. -/
abbrev WorkerId := Id .worker

/-- The id of a plan node, unique within one plan. -/
abbrev NodeId := Id .node

namespace Id

variable {what : Named}

/-- The id with the number `n`, counted modulo `2 ^ 32`. -/
def ofNat (n : Nat) : Id what := ⟨UInt32.ofNat n⟩

instance : Inhabited (Id what) := ⟨ofNat 0⟩

instance : Ord (Id what) := ⟨fun a b => compare a.number b.number⟩

theorem compare_eq (a b : Id what) : compare a b = compare a.number b.number := rfl

instance : Std.TransOrd (Id what) :=
  inferInstanceAs (Std.TransCmp (compareOn fun i : Id what => i.number))

instance : Std.LawfulEqOrd (Id what) where
  eq_of_compare {a b} h := by
    have hn : a.number = b.number := Std.LawfulEqOrd.eq_of_compare h
    cases a; cases b; simp_all

/-- The decimal digits of the number. -/
def text (i : Id what) : String := toString i.number.toNat

instance : ToString (Id what) := ⟨text⟩

/-- The word that goes before the number in a labelled id. -/
def label : Named → String
  | .stage => "StageId"
  | .worker => "WorkerId"
  | .node => "PlanNodeId"

/-- The id with the word for what it names, as in `StageId(3)`. -/
def labelled (i : Id what) : String := label what ++ "(" ++ i.text ++ ")"

end Id

/-- The id of the root stage of every plan that the planner makes. -/
def rootStageId : StageId := Id.ofNat 0

/-- A map from ids to values, ordered by id. -/
abbrev IdMap (what : Named) (α : Type) := Std.ExtTreeMap (Id what) α

/-- One value for each stage. -/
abbrev StageMap (α : Type) := IdMap .stage α

/-- One value for each worker of a stage. -/
abbrev WorkerMap (α : Type) := IdMap .worker α

end StagedQuery
