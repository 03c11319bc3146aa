import Eligibility.Number.Layout

/-!
# Plain numbers

The text of a number in rules: the shortest digits that read back, every zero written out, and
no point in a whole number. NaN and the infinities have names, which no rule reads as numbers.
-/

namespace Eligibility

/-- Plain notation is positional throughout, and of two equally near decimals it takes the
greater. -/
def NumberStyle.plain : NumberStyle :=
  ⟨.upward, fun _ => true, false⟩

/-- A number in plain notation. -/
def Binary64.toText : Binary64 → String
  | nan => "NaN"
  | signed negative m =>
    if m.isFinite then String.ofList (Numeral.ofMagnitude .plain negative m).toText
    else if negative then "-inf" else "inf"

/-- Of the two decimals with seventeen digits that are equally near to 2 ^ -25, the greater is
written. -/
example : (Binary64.ofBits 0x3e60000000000000).toText = "0.000000029802322387695313" := by
  decide +kernel

end Eligibility
