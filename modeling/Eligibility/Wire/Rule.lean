import Eligibility.Rule
import Eligibility.Wire.Condition
import Eligibility.Wire.Request

/-!
# Rules as JSON

A stored rule is an object with all of its parts. Its condition stands one level inside it. How
its numbers and its time of creation are read is left to a reader of each.
-/

namespace Eligibility

namespace Rule

variable [Json.NumberReader] [InstantReader]

/-- The object of a rule. -/
def toJson (rule : Rule) : Json :=
  .ofMembers [("id", .ofNat rule.id), ("name", .ofString rule.name),
    ("description", .ofString rule.description), ("rootNode", rule.condition.toJson),
    ("isActive", .bool rule.isActive), ("version", .ofNat rule.version.toNat),
    ("createdAt", .ofString rule.createdAt.toText)]

/-- Reads a rule. -/
def ofJson? (json : Json) : Option Rule := do
  let [id, name, description, root, active, version, created] ←
    json.fields? [["id"], ["name"], ["description"], ["rootNode"], ["isActive"], ["version"],
      ["createdAt"]] | none
  let id ← id.bind (Json.natural? idBound)
  let name ← name.bind Json.string?
  let description ← description.bind Json.string?
  let condition ← root.bind (Condition.ofJson? (Json.maxNesting - 1))
  let active ← active.bind Json.bool?
  let version ← version.bind (Json.natural? UInt32.size)
  let created ← (created.bind Json.string?).bind InstantReader.read?
  return ⟨id, name, description, condition, active, .ofNat version, created⟩

end Rule

end Eligibility
