import StagedQuery.Json.Basic

/-!
# Printing JSON

A JSON value as text without any blanks (`StagedQuery.Json.render`). Numbers and
strings are printed as they are written in the value.
-/

namespace StagedQuery

namespace Json

/-- A name or string, from the characters between its quotes. -/
def quoteBody (body : String) : String := "\"" ++ body ++ "\""

mutual

/-- **The text of a value**, without blanks. -/
def render : Json → String
  | .null => "null"
  | .bool true => "true"
  | .bool false => "false"
  | .number lexeme => lexeme
  | .string body => quoteBody body
  | .array items => "[" ++ renderItems items ++ "]"
  | .object members => "\x7b" ++ renderMembers members ++ "\x7d"

/-- The items of an array, separated by commas. -/
def renderItems : List Json → String
  | [] => ""
  | [item] => render item
  | item :: next :: rest => render item ++ "," ++ renderItems (next :: rest)

/-- The members of an object, separated by commas. -/
def renderMembers : List (String × Json) → String
  | [] => ""
  | [(name, value)] => quoteBody name ++ ":" ++ render value
  | (name, value) :: next :: rest =>
    quoteBody name ++ ":" ++ render value ++ "," ++ renderMembers (next :: rest)

end

end Json

end StagedQuery
