import StagedQuery.Text.CodeRange

/-!
# White space

The characters with the property White_Space, and trimming a text of them at
both ends (`StagedQuery.Text.trimBlank`). The property is wider than the white
space of ASCII: it takes in the no-break space and the ideographic space.
-/

namespace StagedQuery

namespace Text

/-- The code points that are white space, as closed ranges in ascending order. -/
def blankRanges : List (Nat × Nat) :=
  [(0x9, 0xD), (0x20, 0x20), (0x85, 0x85), (0xA0, 0xA0), (0x1680, 0x1680), (0x2000, 0x200A),
   (0x2028, 0x2029), (0x202F, 0x202F), (0x205F, 0x205F), (0x3000, 0x3000)]

/-- Whether `c` is white space. -/
def isBlank (c : Char) : Bool := inRanges blankRanges c

/-- The text without the white space at its two ends. -/
def trimBlank (s : List Char) : List Char :=
  ((s.dropWhile isBlank).reverse.dropWhile isBlank).reverse

end Text

end StagedQuery
