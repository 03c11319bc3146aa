import Eligibility.Condition
import Eligibility.Json

/-!
# Conditions as nested JSON

A comparison is an object of type `operand`, a join one of type `operator` that holds its
parts. Reading also takes the array of a node's fields that begins with its type.
`Condition.ofJson?` is given the number of levels that arrays and objects may still go; the
whole value has to be sound, members without a meaning included.
-/

namespace Eligibility

variable [Json.NumberReader]

/-! ## Literals and connectives -/

/-- A number is a JSON number and a text a JSON string. -/
def Literal.toJson : Literal → Json
  | number value => .ofNumber value
  | text value => .ofString value

/-- Reads a number or a text. -/
def Literal.ofJson? : Json → Option Literal
  | .number numeral => (Json.number? (.number numeral)).map .number
  | .string value? => value?.map .text
  | _ => none

/-- Reads a connective: its keyword, or an object with nothing under the keyword. -/
def Connective.ofJson? : Json → Option Connective
  | .string (some keyword) => ofKeyword? keyword
  | .object [(some keyword, .null)] | .object [(some keyword, .object [])] => ofKeyword? keyword
  | _ => none

namespace Condition

/-! ## Conditions -/

/-- The nested form of a condition. -/
def toJson : Condition → Json
  | compare c =>
    .ofMembers [("type", .ofString "operand"), ("field", .ofString c.field),
      ("operator", .ofString c.comparator.symbol), ("value", c.literal.toJson)]
  | join connective left right =>
    .ofMembers [("type", .ofString "operator"), ("operator", .ofString connective.keyword),
      ("left", left.toJson), ("right", right.toJson)]

/-- The type of a node. -/
inductive Tag where
  | operator
  | operand

/-- Reads the type of a node. Inside another node it may also be given by its number. -/
def Tag.ofJson? (inner : Bool) : Json → Option Tag
  | .string (some "operator") => some operator
  | .string (some "operand") => some operand
  | .number numeral =>
    match inner, numeral.natural? with
    | true, some 0 => some operator
    | true, some 1 => some operand
    | _, _ => none
  | _ => none

/-- The type of a node and the rest of it. -/
def tagged? (inner : Bool) : Json → Option (Tag × Json)
  | .object members =>
    match members.filter (·.1 = some "type") with
    | [(_, tag)] => (Tag.ofJson? inner tag).map (·, .object (members.filter (·.1 ≠ some "type")))
    | _ => none
  | .array (tag :: items) => (Tag.ofJson? inner tag).map (·, .array items)
  | _ => none

/-- Reads a node and those in it, to the given number of levels. -/
def ofNode? : (levels : Nat) → (inner : Bool) → Json → Option Condition
  | 0, _, _ => none
  | levels + 1, inner, json => do
    match ← tagged? inner json with
    | (.operand, content) =>
      let [field, symbol, literal] ← content.fields? [["field"], ["operator"], ["value"]] | none
      let field ← field.bind Json.string?
      let symbol ← symbol.bind Json.string?
      let literal ← literal.bind Literal.ofJson?
      return compare ⟨field, .ofSymbol symbol, literal⟩
    | (.operator, content) =>
      let [connective, left, right] ← content.fields? [["operator"], ["left"], ["right"]] | none
      let connective ← connective.bind Connective.ofJson?
      let left ← left.bind (ofNode? levels true)
      let right ← right.bind (ofNode? levels true)
      return join connective left right

/-- Reads the nested form of a condition. -/
def ofJson? (levels : Nat) (json : Json) : Option Condition :=
  if json.isSound levels then ofNode? levels false json else none

end Condition

end Eligibility
