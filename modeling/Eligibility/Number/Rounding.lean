import Eligibility.Number.Binary64

/-!
# Rounding to the nearest number

`roundQuotient` rounds a quotient of naturals to a natural, a half to the even neighbour.
`Magnitude.nearest` rounds a quotient to the nearest magnitude: the quotient, counted in units,
is rounded at the last bit of a significand of 53 bits, and since ranks count significands, the
rounded significand is the rank within its run, also when rounding carries into the next one.
All other conversions are built on it: `Magnitude.ofDecimal` for decimal fractions and
`Binary64.ofInt` for integers.
-/

namespace Eligibility

/-- The natural nearest to `num / den`; of two equally near the even one. -/
def roundQuotient (num den : Nat) : Nat :=
  match compare (2 * (num % den)) den with
  | .lt => num / den
  | .eq => num / den + num / den % 2
  | .gt => num / den + 1

/-- The magnitude nearest to `num / den`; of two equally near the one of even rank. -/
def Magnitude.nearest (num den : Nat) : Magnitude :=
  let units := num <<< unitHalvings
  let doublings := (units / den).log2 - 52
  ofRank (doublings * ranksPerDoubling + roundQuotient units (den <<< doublings))

/-- The magnitude nearest to `digits * 10 ^ exponent`. From `10 ^ 309` on that is infinity, and up
to `10 ^ -324`, which is less than half of the smallest positive magnitude, it is zero. -/
def Magnitude.ofDecimal (digits : Nat) (exponent : Int) : Magnitude :=
  if digits = 0 then zero
  else if 309 ≤ exponent then infinity
  else if digits.log2 + 1 + exponent ≤ -324 then zero
  else
    match exponent with
    | .ofNat e => nearest (digits * Nat.pow 10 e) 1
    | .negSucc e => nearest digits (Nat.pow 10 (e + 1))

/-- The number nearest to an integer. -/
def Binary64.ofInt (n : Int) : Binary64 :=
  signed (n < 0) (Magnitude.nearest n.natAbs 1)

end Eligibility
