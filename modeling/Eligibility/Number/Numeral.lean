import Eligibility.Number.Rounding

/-!
# Numerals

A numeral is a number as it is written in decimal digits. `Numeral.value` is the nearest number
to what it denotes, `Numeral.toText` its spelling, and `Numeral.ofText?` reads a text that is a
numeral as a whole, in the liberal form: a sign of either kind, digits on at least one side of
the point, and a power of ten after `e` or `E`.
-/

namespace Eligibility

/-- The natural that a run of the digits `0` to `9` denotes. -/
def digitsValue (digits : List Char) : Nat :=
  digits.foldl (fun n c => 10 * n + (c.toNat - '0'.toNat)) 0

/-- A number in decimal digits: `whole` before the point, `fraction` after it, and the power of
ten that it is to be multiplied by, if one is written. -/
structure Numeral where
  negative : Bool
  whole : List Char
  fraction : List Char
  exponent : Option Int
  deriving DecidableEq

namespace Numeral

/-- The number nearest to what the numeral denotes. -/
def value (n : Numeral) : Binary64 :=
  .signed n.negative
    (.ofDecimal (digitsValue (n.whole ++ n.fraction)) (n.exponent.getD 0 - n.fraction.length))

/-- The natural that is written, if neither a sign nor a point nor a power of ten is. -/
def natural? (n : Numeral) : Option Nat :=
  match n with
  | ⟨false, whole, [], none⟩ => some (digitsValue whole)
  | _ => none

/-- The power of ten, always with its sign. -/
def exponentText : Option Int → List Char
  | none => []
  | some (.ofNat e) => 'e' :: '+' :: Nat.toDigits 10 e
  | some (.negSucc e) => 'e' :: '-' :: Nat.toDigits 10 (e + 1)

/-- The spelling of a numeral; the point is written only before digits. -/
def toText (n : Numeral) : List Char :=
  (if n.negative then ['-'] else []) ++ n.whole ++
    (if n.fraction.isEmpty then [] else '.' :: n.fraction) ++ exponentText n.exponent

/-- Splits off an optional sign: whether it is a minus, and what follows. -/
def cutSign : List Char → Bool × List Char
  | '+' :: rest => (false, rest)
  | '-' :: rest => (true, rest)
  | rest => (false, rest)

/-- Splits off an optional power of ten. Once begun by `e` or `E` it has to have digits. -/
def cutExponent? (text : List Char) : Option (Option Int × List Char) :=
  match text with
  | [] => some (none, [])
  | c :: rest =>
    if c = 'e' ∨ c = 'E' then
      let (negative, rest) := cutSign rest
      match rest.takeWhile Char.isDigit with
      | [] => none
      | digits =>
        let size : Int := digitsValue digits
        some (some (if negative then -size else size), rest.dropWhile Char.isDigit)
    else some (none, c :: rest)

/-- Splits off the digits after an optional point. -/
def cutFraction : List Char → List Char × List Char
  | '.' :: rest => (rest.takeWhile Char.isDigit, rest.dropWhile Char.isDigit)
  | rest => ([], rest)

/-- Reads a text that is a numeral as a whole. -/
def ofText? (text : List Char) : Option Numeral :=
  let (negative, rest) := cutSign text
  let whole := rest.takeWhile Char.isDigit
  let (fraction, rest) := cutFraction (rest.dropWhile Char.isDigit)
  if whole.isEmpty && fraction.isEmpty then none
  else
    match cutExponent? rest with
    | some (exponent, []) => some ⟨negative, whole, fraction, exponent⟩
    | _ => none

theorem length_cutSign_le (text : List Char) : (cutSign text).2.length ≤ text.length := by
  unfold cutSign
  split <;> simp

theorem length_le_of_cutExponent? {text rest : List Char} {exponent : Option Int}
    (h : cutExponent? text = some (exponent, rest)) : rest.length ≤ text.length := by
  cases text with
  | nil => simp_all [cutExponent?]
  | cons c tail =>
    have := length_cutSign_le tail
    have := (List.dropWhile_sublist Char.isDigit (l := (cutSign tail).2)).length_le
    simp only [cutExponent?] at h
    split at h
    · split at h
      · simp at h
      · simp only [Option.some.injEq, Prod.mk.injEq] at h
        rw [← h.2, List.length_cons]
        omega
    · simp only [Option.some.injEq, Prod.mk.injEq] at h
      simp [← h.2]

end Numeral

end Eligibility
