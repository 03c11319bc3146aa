import Eligibility.Evaluation
import Eligibility.Instant
import Eligibility.Node.Flatten

/-!
# Rules

A rule is a condition under a name and an id. Whether it is active, its version and its time of
creation are kept for those who store it; no answer of the library depends on them.
-/

namespace Eligibility

/-- A stored condition. -/
structure Rule where
  /-- The same as from a counter of 64 bits, as long as it is below `idBound`. -/
  id : Nat
  name : String
  description : String
  condition : Condition
  isActive : Bool
  version : UInt32
  createdAt : Instant
  deriving DecidableEq

namespace Rule

/-- The canonical text of a rule. -/
def text (rule : Rule) : String := rule.condition.toText

/-- The nodes of a rule. -/
def nodes (rule : Rule) : List Node := rule.condition.flatten

/-- Tests a record. -/
def eval (rule : Rule) (record : Record) : Except EvalError Bool := rule.condition.eval record

end Rule

end Eligibility
