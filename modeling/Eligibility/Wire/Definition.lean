import Eligibility.Json

/-!
# Rule definitions

A rule is submitted as a name, a description, which may be left out, and a text. A rule set is
a list of definitions to be stored together. In JSON the text goes by either of two names; it
is written under the first.
-/

namespace Eligibility

/-- A rule as it is submitted. -/
structure RuleDefinition where
  name : String
  description : String
  text : String
  deriving DecidableEq

/-- Rules that are submitted together. -/
structure RuleSet where
  rules : List RuleDefinition
  deriving DecidableEq

namespace RuleDefinition

/-- The object of a definition. -/
def toJson (definition : RuleDefinition) : Json :=
  .ofMembers [("name", .ofString definition.name),
    ("description", .ofString definition.description), ("ruleString", .ofString definition.text)]

/-- Reads a definition. -/
def ofJson? (json : Json) : Option RuleDefinition := do
  let [name, description, text] ←
    json.fields? [["name"], ["description"], ["ruleString", "rule_string"]] | none
  let name ← name.bind Json.string?
  let description ← (description.getD (.ofString "")).string?
  let text ← text.bind Json.string?
  return ⟨name, description, text⟩

end RuleDefinition

namespace RuleSet

/-- The object of a rule set. -/
def toJson (set : RuleSet) : Json :=
  .ofMembers [("rules", .array (set.rules.map RuleDefinition.toJson))]

/-- Reads a rule set; without rules it is empty. -/
def ofJson? (json : Json) : Option RuleSet := do
  let [rules] ← json.fields? [["rules"]] | none
  let rules ← (rules.getD (.array [])).items? RuleDefinition.ofJson?
  return ⟨rules⟩

end RuleSet

end Eligibility
