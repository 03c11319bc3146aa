import Eligibility.Node

/-!
# From conditions to nodes

`Condition.flatten` lists the nodes of a condition in pre-order: a join, then its left part,
then its right part. The place of each part follows from the sizes of those before it, so a
part that begins at `start` fills the `size` places from there on (`length_flattenFrom`).
-/

namespace Eligibility

namespace Condition

/-- The nodes of a condition whose root is to stand at position `start`. -/
def flattenFrom (start : Nat) : Condition → List Node
  | compare c => [.ofComparison c]
  | join connective left right =>
    .ofConnective connective (start + 1) (start + 1 + left.size) ::
      (left.flattenFrom (start + 1) ++ right.flattenFrom (start + 1 + left.size))

/-- The nodes of a condition; the root is the first. -/
def flatten (condition : Condition) : List Node :=
  condition.flattenFrom 0

theorem length_flattenFrom : ∀ (condition : Condition) (start : Nat),
    (condition.flattenFrom start).length = condition.size
  | compare _, _ => rfl
  | join _ left right, start => by
    simp only [flattenFrom, List.length_cons, List.length_append, length_flattenFrom left,
      length_flattenFrom right, size]
    omega

end Condition

end Eligibility
