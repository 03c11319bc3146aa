import Eligibility.Json.Lexeme

/-!
# Printing JSON

`Json.toText` spells a value in its compact form, with nothing between the lexemes.
-/

namespace Eligibility

namespace Json

mutual

/-- The lexemes of a value. -/
def lexemes : Json → List Lexeme
  | null => [.null]
  | bool value => [.bool value]
  | number numeral => [.number numeral]
  | string value? => [.string value?]
  | array items => .openArray :: (itemLexemes items ++ [.closeArray])
  | object members => .openObject :: (memberLexemes members ++ [.closeObject])

/-- The lexemes of items, with commas between them. -/
def itemLexemes : List Json → List Lexeme
  | [] => []
  | [item] => lexemes item
  | item :: items => lexemes item ++ .comma :: itemLexemes items

/-- The lexemes of members, with commas between them. -/
def memberLexemes : List (Option String × Json) → List Lexeme
  | [] => []
  | [(name, json)] => .string name :: .colon :: lexemes json
  | (name, json) :: members =>
    .string name :: .colon :: (lexemes json ++ .comma :: memberLexemes members)

end

/-- The compact spelling of a value. -/
def toText (json : Json) : String :=
  String.ofList (json.lexemes.flatMap Lexeme.text)

/-- Of the two decimals with seventeen digits that are equally near to 2 ^ -25, the even one is
written. -/
example : (ofNumber (.ofBits 0x3e60000000000000)).toText = "2.9802322387695312e-8" := by
  decide +kernel

end Json

end Eligibility
