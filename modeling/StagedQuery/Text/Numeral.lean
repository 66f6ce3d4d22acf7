/-!
# Decimal numerals with a bound

Reading a natural number below a given bound from decimal text, with the cause
of a refusal (`StagedQuery.Text.readNumeral`). One plus sign may stand in front
of the digits, leading zeros are allowed, and a minus sign is never allowed.

A text may have several faults; the one reported is the leftmost, and a
character that is not a digit counts before the value it would have made too
large.
-/

namespace StagedQuery

namespace Text

/-- Why a text is not a numeral below a bound. -/
inductive NumeralFault where
  /-- There is no character at all. -/
  | empty
  /-- A character is not a digit, or there is a sign and nothing else. -/
  | invalidDigit
  /-- The value is not below the bound. -/
  | tooLarge
  deriving DecidableEq, Repr

/-- What a fault is called in messages. -/
def NumeralFault.text : NumeralFault → String
  | .empty => "cannot parse integer from empty string"
  | .invalidDigit => "invalid digit found in string"
  | .tooLarge => "number too large to fit in target type"

/-- The value of a decimal digit. -/
def digitValue (c : Char) : Nat := c.toNat - '0'.toNat

/-- Reads digits after a part whose value is `value`, keeping below `bound`. -/
def readDigits (bound : Nat) (value : Nat) : List Char → Except NumeralFault Nat
  | [] => .ok value
  | c :: rest =>
    if c.isDigit then
      let next := value * 10 + digitValue c
      if next < bound then readDigits bound next rest else .error .tooLarge
    else .error .invalidDigit

/-- Reads a numeral with a value below `bound`. -/
def readNumeral (bound : Nat) : List Char → Except NumeralFault Nat
  | [] => .error .empty
  | ['+'] => .error .invalidDigit
  | '+' :: digits => readDigits bound 0 digits
  | digits => readDigits bound 0 digits

end Text

end StagedQuery
