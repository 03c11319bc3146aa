import Eligibility.Node
import Std.Data.HashSet

/-!
# From nodes to conditions

`Condition.ofNodes` follows the references from a root. Every position it meets has to exist,
lie at most `maxDepth` levels below the root, and be met for the first time; then no reference
leads back or to a shared part, and the nodes met form a tree. The first fault in the order of
the walk, a node before its left part and that before its right part, is the answer.
-/

namespace Eligibility

namespace Condition

/-- The condition at a position with `levels` levels to go, and the positions met so far. -/
def unfold (nodes : Array Node) :
    (levels : Nat) → (index : Nat) → (seen : Std.HashSet Nat) →
      Except NodeFault (Condition × Std.HashSet Nat)
  | levels, index, seen =>
    match nodes[index]?, levels with
    | none, _ => .error (.absent index)
    | some _, 0 => .error (.tooDeep index)
    | some node, levels + 1 =>
      if seen.contains index then .error (.shared index)
      else
        match node.shape index with
        | .error fault => .error fault
        | .ok (.compare c) => .ok (compare c, seen.insert index)
        | .ok (.join connective left right) => do
          let (left, seen) ← unfold nodes levels left (seen.insert index)
          let (right, seen) ← unfold nodes levels right seen
          return (join connective left right, seen)

/-- The condition that a list of nodes stores at a position. -/
def ofNodes (nodes : Array Node) (root : Nat) : Except NodeFault Condition :=
  (unfold nodes maxDepth root ∅).map Prod.fst

end Condition

end Eligibility
