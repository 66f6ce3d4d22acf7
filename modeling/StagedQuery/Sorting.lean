/-!
# Sorting by insertion

`StagedQuery.sortBy` puts the items of a list in ascending order of a key, items
with equal keys staying in the order they had. It inserts the items one by one
into what is sorted already, so it recurses on the list itself; the lists sorted
here are short, and nearly in order to begin with.
-/

namespace StagedQuery

section

variable {α κ : Type} [Ord κ] (key : α → κ)

/-- Puts an item in front of the first of `items` whose key is not below its
own. -/
def insertBy (item : α) : List α → List α
  | [] => [item]
  | next :: rest =>
    if (compare (key item) (key next)).isLE then item :: next :: rest
    else next :: insertBy item rest

/-- **The items in ascending order of their keys.** -/
def sortBy : List α → List α
  | [] => []
  | item :: rest => insertBy key item (sortBy rest)

/-- Whether the keys of the items ascend, one after the other; equal keys may
follow one another. -/
def isSortedBy : List α → Bool
  | [] | [_] => true
  | a :: b :: rest => (compare (key a) (key b)).isLE && isSortedBy (b :: rest)

theorem insertBy_perm (item : α) (items : List α) :
    (insertBy key item items).Perm (item :: items) := by
  induction items with
  | nil => exact .refl _
  | cons next rest ih =>
    unfold insertBy
    split
    · exact .refl _
    · exact (ih.cons next).trans (.swap item next rest)

/-- Sorting rearranges. -/
theorem sortBy_perm (items : List α) : (sortBy key items).Perm items := by
  induction items with
  | nil => exact .refl _
  | cons item rest ih => exact (insertBy_perm key item _).trans (ih.cons item)

end

end StagedQuery
