import Eligibility.Json
import Eligibility.Record

/-!
# Records as JSON

A record is an object. The type of a JSON value is the type of the field value, so a text that
looks like a number stays a text. Of members with the same name the last counts.
-/

namespace Eligibility

variable [Json.NumberReader]

/-- A field value as the JSON value of its type. -/
def FieldValue.toJson : FieldValue → Json
  | truth value => .bool value
  | number value => .ofNumber value
  | text value => .ofString value

/-- Reads a truth value, a number or a text. -/
def FieldValue.ofJson? : Json → Option FieldValue
  | .bool value => some (truth value)
  | .number numeral => (Json.number? (.number numeral)).map number
  | .string value? => value?.map text
  | _ => none

namespace Record

/-- The object of a record. -/
def toJson (record : Record) : Json :=
  .ofMembers (record.entries.map fun entry => (entry.1, entry.2.toJson))

/-- Reads a member of an object as an entry. -/
def entryOfMember? (member : Option String × Json) : Option (String × FieldValue) := do
  return (← member.1, ← FieldValue.ofJson? member.2)

/-- Reads a record. -/
def ofJson? : Json → Option Record
  | .object members => (members.mapM entryOfMember?).map ofList
  | _ => none

end Record

end Eligibility
