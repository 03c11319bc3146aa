/-!
# Sets of characters as sorted ranges

A property of characters is kept as the list of its ranges of code points, each with both ends
included, in ascending order. `inRanges` looks a code point up and stops at the first range
that begins beyond it (`inRanges_of_lt`, `inRanges_of_le`).
-/

namespace Eligibility

/-- Whether `n` lies in one of the ranges of an ascending list. -/
def inRanges (n : Nat) : List (Nat × Nat) → Bool
  | [] => false
  | (first, last) :: ranges => if n < first then false else n ≤ last || inRanges n ranges

/-- Below the first range nothing is found. -/
theorem inRanges_of_lt {n first last : Nat} {ranges : List (Nat × Nat)} (h : n < first) :
    inRanges n ((first, last) :: ranges) = false := by
  simp [inRanges, h]

/-- Within the first range a code point is found. -/
theorem inRanges_of_le {n first last : Nat} {ranges : List (Nat × Nat)} (h : first ≤ n)
    (h' : n ≤ last) : inRanges n ((first, last) :: ranges) = true := by
  simp [inRanges, Nat.not_lt.mpr h, h']

end Eligibility
