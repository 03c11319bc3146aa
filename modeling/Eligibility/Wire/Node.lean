import Eligibility.Node
import Eligibility.Wire.Condition

/-!
# Nodes as JSON

A node is an object that has the parts that are present, under the names `type`, `operator`,
`field`, `value`, `left` and `right`. A part that is null is absent, too.
-/

namespace Eligibility

namespace Node

variable [Json.NumberReader]

/-- The positions that a node can refer to are 64 bits wide. -/
def indexBound : Nat := UInt64.size

/-- A member for a part that is present. -/
def partMember {α : Type} (name : String) (write : α → Json) : Option α → List (String × Json)
  | none => []
  | some part => [(name, write part)]

/-- The object of a node. -/
def toJson (node : Node) : Json :=
  .ofMembers
    (partMember "type" .ofString node.kind ++ partMember "operator" .ofString node.operator ++
      partMember "field" .ofString node.field ++ partMember "value" Literal.toJson node.literal ++
      partMember "left" .ofNat node.left ++ partMember "right" .ofNat node.right)

/-- Reads a node. -/
def ofJson? (json : Json) : Option Node := do
  let [kind, operator, field, literal, left, right] ←
    json.fields? [["type"], ["operator"], ["field"], ["value"], ["left"], ["right"]] | none
  let kind ← Json.optional? Json.string? kind
  let operator ← Json.optional? Json.string? operator
  let field ← Json.optional? Json.string? field
  let literal ← Json.optional? Literal.ofJson? literal
  let left ← Json.optional? (Json.natural? indexBound) left
  let right ← Json.optional? (Json.natural? indexBound) right
  return ⟨kind, operator, field, literal, left, right⟩

/-- The array of a list of nodes. -/
def listToJson (nodes : List Node) : Json :=
  .array (nodes.map toJson)

/-- Reads a list of nodes. -/
def listOfJson? : Json → Option (List Node) :=
  Json.items? ofJson?

end Node

end Eligibility
