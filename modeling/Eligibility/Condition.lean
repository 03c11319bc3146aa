import Eligibility.Comparator
import Eligibility.Connective
import Eligibility.Literal

/-!
# Conditions

A condition is a comparison of one field with a literal, or two conditions joined by a
connective. `Condition.depth` counts its levels and `Condition.size` its nodes.
`Condition.toText` is its canonical text, in which every join stands in parentheses. No
condition that the library reads or combines has more than `maxDepth` levels.
-/

namespace Eligibility

/-- The greatest number of levels of a condition. -/
def maxDepth : Nat := 512

/-- A test of one field. -/
structure Comparison where
  field : String
  comparator : Comparator
  literal : Literal
  deriving DecidableEq

namespace Comparison

/-- The canonical text of a comparison. -/
def toText (c : Comparison) : String :=
  c.field ++ " " ++ c.comparator.symbol ++ " " ++ c.literal.toText

/-- Equality with literals compared by value. -/
def sameAs (c d : Comparison) : Bool :=
  c.field == d.field && c.comparator == d.comparator && c.literal.sameAs d.literal

end Comparison

/-- What a rule demands of a record. -/
inductive Condition where
  | compare (comparison : Comparison)
  | join (connective : Connective) (left right : Condition)
  deriving DecidableEq

namespace Condition

/-- The number of levels. -/
def depth : Condition → Nat
  | compare _ => 1
  | join _ left right => 1 + max left.depth right.depth

/-- The number of comparisons and joins. -/
def size : Condition → Nat
  | compare _ => 1
  | join _ left right => 1 + left.size + right.size

theorem size_pos (t : Condition) : 0 < t.size := by
  cases t <;> rw [size] <;> omega

/-- The canonical text. -/
def toText : Condition → String
  | compare c => c.toText
  | join connective left right =>
    "(" ++ left.toText ++ " " ++ connective.keyword ++ " " ++ right.toText ++ ")"

/-- Equality with literals compared by value. -/
def sameAs : Condition → Condition → Bool
  | compare c, compare d => c.sameAs d
  | join c left right, join d left' right' => c == d && left.sameAs left' && right.sameAs right'
  | _, _ => false

end Condition

end Eligibility
