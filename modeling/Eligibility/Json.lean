import Eligibility.Number.Layout

/-!
# JSON values

A JSON text is kept as it is written: numbers by their numerals, the members of an object in
order and with repetitions. A string may hold escapes that denote no text, halves of surrogate
pairs; then it has no value. What a reader demands of such a value depends on its place: a part
that is not asked for may hold anything. `Json.isSound` is the demand on parts that are kept:
every number and every string has a value, and arrays and objects are nested at most so deep.

What number a numeral is read as is left to a `Json.NumberReader`. That it reads every finite
number from its own spelling (`Json.NumberReader.IsExact`) is not taken for granted, since a
reader that rounds more than once may miss the last digit.
-/

namespace Eligibility

/-- A JSON value. -/
inductive Json where
  | null
  | bool (value : Bool)
  | number (numeral : Numeral)
  | string (value? : Option String)
  | array (items : List Json)
  | object (members : List (Option String × Json))

namespace Json

/-- How numbers are read. -/
class NumberReader where
  /-- The number that a numeral is read as, if it is not refused. -/
  read? : Numeral → Option Binary64

/-- The reader where no other is given. It rounds once, and refuses what is not finite then. -/
instance NumberReader.nearest : NumberReader where
  read? numeral := if numeral.value.isFinite then some numeral.value else none

variable [NumberReader]

/-- Arrays and objects go at most this deep. -/
def maxNesting : Nat := 127

/-- Whether all numbers are read and all strings texts, and arrays and objects go at most
`levels` deep. -/
def isSound (levels : Nat) : Json → Bool
  | null | bool _ => true
  | number numeral => (NumberReader.read? numeral).isSome
  | string value? => value?.isSome
  | array items =>
    match levels with
    | 0 => false
    | levels + 1 => items.all (isSound levels)
  | object members =>
    match levels with
    | 0 => false
    | levels + 1 => members.all fun member => member.1.isSome && isSound levels member.2

/-! ## Parts of a value -/

/-- The truth value. -/
def bool? : Json → Option Bool
  | bool value => some value
  | _ => none

/-- The text. -/
def string? : Json → Option String
  | string value? => value?
  | _ => none

/-- The number. -/
def number? : Json → Option Binary64
  | number numeral => NumberReader.read? numeral
  | _ => none

/-- The natural below `bound` that is written as such. -/
def natural? (bound : Nat) : Json → Option Nat
  | number numeral => numeral.natural?.filter (· < bound)
  | _ => none

/-- The items, each read by `read?`. -/
def items? {α : Type} (read? : Json → Option α) : Json → Option (List α)
  | array items => items.mapM read?
  | _ => none

/-- A part that may be absent or null. -/
def optional? {α : Type} (read? : Json → Option α) : Option Json → Option (Option α)
  | none | some null => some none
  | some json => (read? json).map some

/-- The value of the only member with one of the names; `some none` if there is no such member,
`none` if there are several. -/
def member? (names : List String) (members : List (Option String × Json)) : Option (Option Json) :=
  match members.filter fun member => member.1.any (· ∈ names) with
  | [] => some none
  | [member] => some (some member.2)
  | _ => none

/-- The parts of a value with known fields, each with its possible names: an object with other
members besides, or an array of the fields in order, of which the last ones may be left out. -/
def fields? (fields : List (List String)) : Json → Option (List (Option Json))
  | object members =>
    if members.all (·.1.isSome) then fields.mapM (member? · members) else none
  | array items =>
    if items.length ≤ fields.length then
      some (items.map some ++ List.replicate (fields.length - items.length) none)
    else none
  | _ => none

/-! ## Building values -/

/-- The numbers of JSON: positional from 0.00001 to below 10 ^ 16, always with a point; of two
equally near decimals the even one. -/
def numberStyle : NumberStyle :=
  ⟨.toEven, fun power => -5 ≤ power && power ≤ 15, true⟩

/-- A number; NaN and the infinities have no spelling and become null. -/
def ofNumber : Binary64 → Json
  | .nan => null
  | .signed negative m =>
    if m.isFinite then number (Numeral.ofMagnitude numberStyle negative m) else null

/-- Every finite number is read from its own spelling. -/
def NumberReader.IsExact : Prop :=
  ∀ x : Binary64, x.isFinite = true → (ofNumber x).number? = some x

/-- A natural. -/
def ofNat (n : Nat) : Json := number ⟨false, Nat.toDigits 10 n, [], none⟩

/-- A text. -/
def ofString (text : String) : Json := string (some text)

/-- An object with distinct names. -/
def ofMembers (members : List (String × Json)) : Json :=
  object (members.map fun member => (some member.1, member.2))

end Json

end Eligibility
