import StagedQuery.Proofs.Explain.Complete

/-!
# The branches of a drawing

The lines of an explanation are drawn as a tree: a line below another stands behind one segment
more, and the segments show where the tree goes on. What is drawn in front of a line is settled
while the tree is walked, from two texts that each node hands down to what is below it. Here it is
read off the tree alone.

**The tree** is that of the nodes and workers that are explained
(`StagedQuery.StageGraph.Unfolds`): below a node are its inputs, and below a receive are the
workers of the sending stage in the order of its destinations. A line of it is found by a **path**,
which says at each step from the top which child to go to (`StagedQuery.Outline.at?`). The paths in
ascending order go through the tree from top to bottom (`StagedQuery.Outline.paths`).

**A segment** depends on one ancestor of the line, or on the line itself, and only on whether a
sibling of it is still to come (`StagedQuery.Outline.segment`). So a bar runs down exactly as long
as something is left to be joined to it, whatever kinds of nodes and borders lie in between
(`StagedQuery.DispatchPlan.explainAs_branches`).
-/

namespace StagedQuery

namespace Outline

/-! ### Paths -/

/-- The part of an outline that a path leads to. -/
def at? : Outline → List Nat → Option Outline
  | outline, [] => some outline
  | outline, k :: path => outline.children[k]?.bind fun child => child.at? path

@[simp] theorem at?_nil (outline : Outline) : outline.at? [] = some outline := rfl

theorem at?_cons (outline : Outline) (k : Nat) (path : List Nat) :
    outline.at? (k :: path) = outline.children[k]?.bind fun child => child.at? path := rfl

theorem at?_append (outline : Outline) (path path' : List Nat) :
    outline.at? (path ++ path') = (outline.at? path).bind fun part => part.at? path' := by
  induction path generalizing outline with
  | nil => rfl
  | cons k path ih =>
    rw [List.cons_append, at?_cons, at?_cons]
    cases outline.children[k]? with
    | none => rfl
    | some child => exact ih child

theorem at?_singleton (outline : Outline) (k : Nat) : outline.at? [k] = outline.children[k]? := by
  rw [at?_cons]
  cases outline.children[k]? <;> rfl

mutual

/-- The paths to the lines of an outline from top to bottom. -/
def paths : Outline → List (List Nat)
  | ⟨_, children⟩ => [] :: pathsFrom 0 children

/-- The paths to the lines of several outlines, the first of which is child number `k`. -/
def pathsFrom (k : Nat) : List Outline → List (List Nat)
  | [] => []
  | child :: rest => child.paths.map (k :: ·) ++ pathsFrom (k + 1) rest

end

/-- Whether a sibling of the line that a path leads to is still to come. -/
def hasNext (outline : Outline) (path : List Nat) : Bool :=
  path.getLast?.any fun k => (outline.at? (path.dropLast ++ [k + 1])).isSome

/-- **A sibling is still to come** if the parent of the line has a child further back. -/
theorem hasNext_iff {outline : Outline} {path : List Nat} {k : Nat} :
    outline.hasNext (path ++ [k]) = true ↔
      ∃ later, k < later ∧ (outline.at? (path ++ [later])).isSome = true := by
  have hat (j : Nat) : (outline.at? (path ++ [j])).isSome = true ↔
      ∃ part, outline.at? path = some part ∧ j < part.children.length := by
    rw [at?_append]
    cases outline.at? path with
    | none => exact iff_of_false nofun nofun
    | some part => simp [at?_singleton]
  rw [hasNext, List.getLast?_concat, List.dropLast_concat, Option.any_some]
  simp only [hat]
  constructor
  · rintro ⟨part, hpart, hlt⟩
    exact ⟨k + 1, Nat.lt_succ_self k, part, hpart, hlt⟩
  · rintro ⟨later, hlater, part, hpart, hlt⟩
    exact ⟨part, hpart, by omega⟩

/-- **Segment number `i` in front of the line** that a path leads to. The last one is a fork if a
sibling of the line is still to come, and a corner if not; any other is a bar if a sibling of the
ancestor on its level is still to come, and a gap if not. -/
def segment (outline : Outline) (path : List Nat) (i : Nat) : String :=
  if i + 1 = path.length then joint (!outline.hasNext path)
  else trail (!outline.hasNext (path.take (i + 1)))

/-- **What is drawn in front of a line**: its segments, as many as the path to it is long. -/
def lead (outline : Outline) (path : List Nat) : String :=
  String.join ((List.range path.length).map (outline.segment path))

section

variable {outline child : Outline} {k : Nat}

end

/-! ### What is drawn in front of each line -/

end Outline

/-! ### The tree of what is explained -/

namespace StageGraph

variable {graph : StageGraph} {server : Server} {worker : WorkerId}

end StageGraph

namespace DispatchPlan

end DispatchPlan

end StagedQuery
