/-!
# Finding a place by halving

Where a value is, or would go, in a list in ascending order
(`StagedQuery.findPosition`). The value is described by how the items compare
with it. The search keeps a window that begins at `base`; each step looks at the
item half-way through it and keeps the half that begins at or before the value.

On a list that is out of order the outcome is still determined, and it is part
of what the program shows: assignments come from files, too, and the place of a
new server in one follows this search.
-/

namespace StagedQuery

/-- Where a value is in a list, or where it would go. -/
inductive Position where
  /-- The value is the item with this index. -/
  | found (index : Nat)
  /-- The value is not there; it would go in front of the item with this index. -/
  | missing (index : Nat)
  deriving DecidableEq, Repr

section

variable {α : Type} (compareTo : α → Ordering) (items : List α)

/-- How the item with an index compares with the value. Every index that the
search looks at is that of an item. -/
def compareAt (index : Nat) : Ordering := (items[index]?.map compareTo).getD .gt

/-- Halves a window of `size` items that begins at `base` until it holds one
item, in at most `steps` steps; where that window begins. -/
def narrow (steps base size : Nat) : Nat :=
  match steps with
  | 0 => base
  | steps + 1 =>
    if size ≤ 1 then base
    else
      let half := size / 2
      let base := if compareAt compareTo items (base + half) = .gt then base else base + half
      narrow steps base (size - half)

/-- **The position of a value** among items in ascending order. -/
def findPosition : Position :=
  if items.isEmpty then .missing 0
  else
    let base := narrow compareTo items items.length 0 items.length
    match compareAt compareTo items base with
    | .eq => .found base
    | .lt => .missing (base + 1)
    | .gt => .missing base

end

end StagedQuery
