import Eligibility.Json.Lexeme

/-!
# Reading JSON

A JSON value is read from its lexemes one at a time. Between two lexemes the reader is in a
`State` : it waits for a value, a name, a colon, or for what may follow a value. `Place` says
where the value belongs and holds all that was read of the arrays and objects around it, so
nesting costs no recursion and is not limited. `Json.parse?` reads a whole text.
-/

namespace Eligibility

namespace Json

/-- Where a value stands: alone, after the items before it (the last one first), or under a name
after the members before it. -/
inductive Place where
  | top
  | item (outer : Place) (before : List Json)
  | member (outer : Place) (before : List (Option String × Json)) (name : Option String)

/-- What has been read, and what may come next. In a `fresh` array or object the end may come at
once. -/
inductive State where
  /-- A value comes next. -/
  | value (place : Place) (fresh : Bool)
  /-- The name of a member comes next. -/
  | memberName (outer : Place) (before : List (Option String × Json)) (fresh : Bool)
  /-- A colon comes next. -/
  | colon (outer : Place) (before : List (Option String × Json)) (name : Option String)
  /-- A value has been read; a comma, an end or nothing comes next. -/
  | done (place : Place) (json : Json)

/-- The state after one more lexeme, if it may come. -/
def State.next? : State → Lexeme → Option State
  | value place _, .null => some (done place .null)
  | value place _, .bool b => some (done place (.bool b))
  | value place _, .number numeral => some (done place (.number numeral))
  | value place _, .string text => some (done place (.string text))
  | value place _, .openArray => some (value (.item place []) true)
  | value place _, .openObject => some (memberName place [] true)
  | value (.item outer []) true, .closeArray => some (done outer (.array []))
  | memberName outer before _, .string text => some (colon outer before text)
  | memberName outer [] true, .closeObject => some (done outer (.object []))
  | colon outer before name, .colon => some (value (.member outer before name) false)
  | done (.item outer before) json, .comma => some (value (.item outer (json :: before)) false)
  | done (.item outer before) json, .closeArray =>
    some (done outer (.array (json :: before).reverse))
  | done (.member outer before key) json, .comma =>
    some (memberName outer ((key, json) :: before) false)
  | done (.member outer before key) json, .closeObject =>
    some (done outer (.object ((key, json) :: before).reverse))
  | _, _ => none

/-- The value that a row of lexemes spells. -/
def ofLexemes? (lexemes : List Lexeme) : Option Json :=
  match lexemes.foldlM State.next? (.value .top false) with
  | some (.done .top json) => some json
  | _ => none

/-- The value that a text spells. -/
def parse? (text : String) : Option Json :=
  (Lexeme.scan? text.toList).bind ofLexemes?

end Json

end Eligibility
