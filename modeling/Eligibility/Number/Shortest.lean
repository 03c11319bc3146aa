import Eligibility.Number.Numeral

/-!
# Shortest decimals

`Magnitude.shortest` finds the decimal with the fewest digits that reads back as a given finite
magnitude. A decimal with few digits lies on a coarse grid, the multiples of a power of ten; so
the grids are tried from coarse to fine. If any point of a grid reads back, then one of the
value's two neighbours on that grid does, and of these the nearer one is taken (`gridPoint?`).
Between two equally near ones a `Tie` decides.
-/

namespace Eligibility

/-- Which of two equally near decimals is taken. -/
inductive Tie where
  | upward
  | toEven
  deriving DecidableEq

namespace Magnitude

/-- The value divided by `10 ^ place`, as a numerator and a denominator. -/
def scaled (m : Magnitude) : Int → Nat × Nat
  | .ofNat p => (m.units, Nat.pow 10 p <<< unitHalvings)
  | .negSucc p => (m.units * Nat.pow 10 (p + 1), 1 <<< unitHalvings)

/-- The nearest of the value's two neighbours on the grid of multiples of `10 ^ place` that read
back as the value. The result counts multiples. -/
def gridPoint? (m : Magnitude) (tie : Tie) (place : Int) : Option Nat :=
  let (num, den) := m.scaled place
  let below := num / den
  let above := below + 1
  match decide (ofDecimal below place = m), decide (ofDecimal above place = m) with
  | true, false => some below
  | false, true => some above
  | false, false => none
  | true, true =>
    match compare (2 * (num % den)) den, tie with
    | .lt, _ => some below
    | .gt, _ => some above
    | .eq, .upward => some above
    | .eq, .toEven => some (below + below % 2)

/-- The first of `tries` grids, from `place` downward, that has a point which reads back. -/
def firstGridPoint? (m : Magnitude) (tie : Tie) : (tries : Nat) → (place : Int) → Option (Nat × Int)
  | 0, _ => none
  | tries + 1, place =>
    match m.gridPoint? tie place with
    | some digits => some (digits, place)
    | none => firstGridPoint? m tie tries (place - 1)

/-- A place no decimal that reads back can lie above: `10 ^ topPlace` exceeds twice the value. The
quotient is a little more than the common logarithm of two. -/
def topPlace (m : Magnitude) : Int :=
  ((m.units.log2 : Int) - 1072) * 30103 / 100000 + 1

/-- The value in full. -/
def exact (m : Magnitude) : Nat × Int :=
  (m.units * Nat.pow 5 unitHalvings, -unitHalvings)

/-- The digits and the place of the last digit of the shortest decimal that reads back. Seventeen
digits are enough for every magnitude. -/
def shortest (tie : Tie) (m : Magnitude) : Nat × Int :=
  if m.rank = 0 then (0, 0) else (m.firstGridPoint? tie 20 m.topPlace).getD m.exact

end Magnitude

end Eligibility
