import StagedQuery.Text.Unprintable
import StagedQuery.Text.Extending
import StagedQuery.Text.Ignorable

/-!
# Quoted text and bracketed lists

How strings, lists, pairs and sets of strings are shown inside messages and
plan trees: a string between double quotes with everything that would not be
seen written as an escape (`StagedQuery.Text.quoted`), a list between square
brackets, a pair between parentheses, a set between braces.

A quoted text never holds a line break, whatever the string.
-/

namespace StagedQuery

namespace Text

/-- How one character is written between quotes. -/
def quotedChar (c : Char) : List Char :=
  if c = '"' then ['\\', '"']
  else if c = '\\' then ['\\', '\\']
  else if c = '\n' then ['\\', 'n']
  else if c = '\r' then ['\\', 'r']
  else if c = '\t' then ['\\', 't']
  else if c = '\x00' then ['\\', '0']
  else if isExtending c || isUnprintable c || isIgnorable c then
    ['\\', 'u', '\x7b'] ++ Nat.toDigits 16 c.toNat ++ ['\x7d']
  else [c]

/-- The string between double quotes, with escapes for quotes, backslashes and
all that is not seen. -/
def quoted (s : String) : String :=
  String.ofList ('"' :: s.toList.flatMap quotedChar ++ ['"'])

/-- The parts, separated by a comma and a space. -/
def listed (parts : List String) : String := ", ".intercalate parts

/-- The parts between square brackets. -/
def bracketed (parts : List String) : String := "[" ++ listed parts ++ "]"

/-- The parts between braces. -/
def braced (parts : List String) : String := "\x7b" ++ listed parts ++ "\x7d"

/-- A list of strings, each quoted. -/
def quotedList (strings : List String) : String := bracketed (strings.map quoted)

/-- A pair of strings, each quoted. -/
def quotedPair (pair : String × String) : String :=
  "(" ++ quoted pair.1 ++ ", " ++ quoted pair.2 ++ ")"

end Text

end StagedQuery
