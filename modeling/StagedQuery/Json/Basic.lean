/-!
# JSON as it is written

`StagedQuery.Json` is a JSON text after its brackets, commas and colons have
been understood and before anything else has: a number is kept as the characters
it is written with, a string as the characters between its quotes, escapes
included. A reader of typed data has to see both – `1.0` is not a natural
number, and a number used as a name must be written in plain digits – and a
reader that skips a value must not reject what only reading it would.
-/

namespace StagedQuery

/-- A JSON value, with numbers and strings as they are written. -/
inductive Json where
  /-- The value `null`. -/
  | null
  /-- A truth value. -/
  | bool (value : Bool)
  /-- A number, as its characters. -/
  | number (lexeme : String)
  /-- A string, as the characters between its quotes. -/
  | string (body : String)
  /-- An array. -/
  | array (items : List Json)
  /-- An object: its members in order, each name as the characters between its
  quotes. -/
  | object (members : List (String × Json))
  deriving Inhabited

end StagedQuery
