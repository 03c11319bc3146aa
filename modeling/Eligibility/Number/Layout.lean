import Eligibility.Number.Shortest

/-!
# Layout of numbers

A `NumberStyle` holds what a format decides about the text of a number whose digits are chosen:
which powers of ten are written out in zeros, and whether a whole number keeps a point.
`Numeral.ofMagnitude` lays a finite magnitude out in a style.
-/

namespace Eligibility

/-- The decisions of a format on the text of numbers. -/
structure NumberStyle where
  /-- Which of two equally near shortest decimals is written. -/
  tie : Tie
  /-- Whether a number whose first digit stands for this power of ten is written positionally. -/
  isPositional : Int → Bool
  /-- Whether a whole number written positionally ends in `.0`. -/
  keepsPoint : Bool

namespace Numeral

/-- The digits in their places: zeros fill the places up to the point. -/
def positional (keepsPoint : Bool) (digits : List Char) : (place : Int) → List Char × List Char
  | .ofNat p => (digits ++ List.replicate p '0', if keepsPoint then ['0'] else [])
  | .negSucc p =>
    if p + 1 < digits.length then
      (digits.take (digits.length - (p + 1)), digits.drop (digits.length - (p + 1)))
    else (['0'], List.replicate (p + 1 - digits.length) '0' ++ digits)

/-- A finite magnitude with a sign, written in a style. -/
def ofMagnitude (style : NumberStyle) (negative : Bool) (m : Magnitude) : Numeral :=
  let (value, place) := m.shortest style.tie
  let digits := Nat.toDigits 10 value
  let power := (digits.length : Int) - 1 + place
  if style.isPositional power then
    let (whole, fraction) := positional style.keepsPoint digits place
    ⟨negative, whole, fraction, none⟩
  else ⟨negative, digits.take 1, digits.drop 1, some power⟩

end Numeral

end Eligibility
