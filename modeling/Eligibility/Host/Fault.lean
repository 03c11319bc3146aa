import Eligibility.RuleError

/-!
# Faults of host calls

Why a call of the host fails: its arguments cannot be used, or the library reports an error.
-/

namespace Eligibility

/-- The reason for which a call of the host has no answer. -/
inductive HostFault where
  /-- An argument is missing, surplus or of the wrong type. -/
  | wrongType
  /-- The value of a record's field is of no type that records hold. -/
  | wrongFieldType (field : String)
  /-- An integer is no id. -/
  | outOfRange
  /-- A definition has no part of that name. -/
  | missingPart (name : String)
  | failed (error : RuleError)
  deriving DecidableEq

/-- The message on a failed call. Faults of the arguments themselves are described by the host. -/
def HostFault.message? : HostFault → Option String
  | wrongType | outOfRange => none
  | wrongFieldType field => some s!"Field '{field}' must be a bool, number or str"
  | missingPart name => some name
  | failed error => some error.message

end Eligibility
