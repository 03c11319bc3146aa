import Eligibility.Host.Fault
import Eligibility.Host.Value
import Eligibility.Wire.Definition
import Eligibility.Wire.Request

/-!
# Arguments of host calls

`bindArguments` gives each parameter of a function its argument, by position or by name. The
other functions convert host values to those of the library; each takes only the types it
names, and a truth value counts as an integer only where ids are read.
-/

namespace Eligibility

/-! ## Binding -/

/-- A parameter, which may have to be given. -/
structure HostParameter where
  name : String
  isRequired : Bool

/-- The arguments of the parameters from the positional and the named ones. Each is given at most
once, and there are no others. -/
def bindArguments (parameters : List HostParameter) (positional : List HostValue)
    (named : List (String × HostValue)) : Except HostFault (List (Option HostValue)) :=
  match parameters, positional with
  | [], [] => if named.isEmpty then .ok [] else .error .wrongType
  | [], _ :: _ => .error .wrongType
  | parameter :: parameters, value :: positional =>
    if named.any (·.1 == parameter.name) then .error .wrongType
    else (bindArguments parameters positional named).map (some value :: ·)
  | parameter :: parameters, [] =>
    match named.partition (·.1 == parameter.name) with
    | ([], _) =>
      if parameter.isRequired then .error .wrongType
      else (bindArguments parameters [] named).map (none :: ·)
    | ([(_, value)], named) => (bindArguments parameters [] named).map (some value :: ·)
    | _ => .error .wrongType

namespace HostValue

/-! ## Conversions of arguments -/

/-- A text. -/
def toText : HostValue → Except HostFault String
  | text value => .ok value
  | _ => .error .wrongType

/-- A text or nothing. -/
def toOptionalText : HostValue → Except HostFault (Option String)
  | none => .ok Option.none
  | value => value.toText.map some

/-- A truth value. -/
def toBool : HostValue → Except HostFault Bool
  | bool value => .ok value
  | _ => .error .wrongType

/-- An id. -/
def toId : HostValue → Except HostFault Nat
  | bool value => .ok value.toNat
  | int value =>
    if 0 ≤ value ∧ value < idBound then .ok value.toNat else .error .outOfRange
  | _ => .error .wrongType

/-- A sequence of ids. -/
def toIds : HostValue → Except HostFault (List Nat)
  | list items | tuple items => items.mapM toId
  | bytes octets => .ok (octets.map UInt8.toNat)
  | _ => .error .wrongType

/-- A dictionary. -/
def toEntries : HostValue → Except HostFault (List (HostValue × HostValue))
  | dict entries => .ok entries
  | _ => .error .wrongType

/-- A list. -/
def toItems : HostValue → Except HostFault (List HostValue)
  | list items => .ok items
  | _ => .error .wrongType

/-! ## Records and definitions -/

/-- The value of a field. An integer becomes the nearest number, which has to be finite. -/
def toFieldValue (field : String) : HostValue → Except HostFault FieldValue
  | bool value => .ok (.truth value)
  | int value =>
    if (Binary64.ofInt value).isFinite then .ok (.ofInt value) else .error (.wrongFieldType field)
  | float value | floatLike value => .ok (.number value)
  | text value => .ok (.text value)
  | _ => .error (.wrongFieldType field)

/-- The record of a dictionary. -/
def toRecord (entries : List (HostValue × HostValue)) : Except HostFault Record := do
  let entries ← entries.mapM fun (key, value) => do
    let field ← key.toText
    return (field, ← value.toFieldValue field)
  return .ofList entries

/-- The text that a value has under a name. -/
def textPart (value : HostValue) (name : String) : Except HostFault String :=
  match value.part? name with
  | some part => part.toText
  | Option.none => .error (.missingPart name)

/-- A rule definition. A description that is no text is none, and the text of the rule goes by
either of two names. -/
def toDefinition (value : HostValue) : Except HostFault RuleDefinition := do
  let name ← value.textPart "name"
  let description :=
    match value.part? "description" with
    | some (text description) => description
    | _ => ""
  let rule ←
    match value.part? "rule_string" with
    | some part => part.toText
    | Option.none => value.textPart "ruleString"
  return ⟨name, description, rule⟩

end HostValue

end Eligibility
