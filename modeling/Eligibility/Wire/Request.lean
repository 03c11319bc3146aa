import Eligibility.Wire.Record

/-!
# Requests

What a service asks of stored rules: to test a record by one of them, or to combine several.
Rules are named by their ids, which are 64 bits wide in requests.
-/

namespace Eligibility

/-- The ids of requests lie below this bound. -/
def idBound : Nat := UInt64.size

/-- Asks to test a record by a stored rule. -/
structure EvaluateRequest where
  ruleId : UInt64
  data : Record
  deriving DecidableEq

/-- Asks to combine stored rules. -/
structure CombineRequest where
  ruleIds : List UInt64
  deriving DecidableEq

/-- Reads an id. -/
def idOfJson? (json : Json) : Option UInt64 :=
  (json.natural? idBound).map UInt64.ofNat

namespace EvaluateRequest

variable [Json.NumberReader]

/-- The object of a request. -/
def toJson (request : EvaluateRequest) : Json :=
  .ofMembers [("ruleId", .ofNat request.ruleId.toNat), ("data", request.data.toJson)]

/-- Reads a request. -/
def ofJson? (json : Json) : Option EvaluateRequest := do
  let [id, data] ← json.fields? [["ruleId"], ["data"]] | none
  return ⟨← id.bind idOfJson?, ← data.bind Record.ofJson?⟩

end EvaluateRequest

namespace CombineRequest

/-- The object of a request. -/
def toJson (request : CombineRequest) : Json :=
  .ofMembers [("ruleIds", .array (request.ruleIds.map fun id => .ofNat id.toNat))]

/-- Reads a request. -/
def ofJson? (json : Json) : Option CombineRequest := do
  let [ids] ← json.fields? [["ruleIds"]] | none
  return ⟨← ids.bind (Json.items? idOfJson?)⟩

end CombineRequest

end Eligibility
