import Eligibility.Combination
import Eligibility.Evaluation
import Eligibility.ParseError

/-!
# Why a call on rules fails

The failures of reading, testing and combining conditions, and those of a rule book.
-/

namespace Eligibility

/-- The reason for which a call on rules has no answer. -/
inductive RuleError where
  | parse (error : ParseError)
  | eval (error : EvalError)
  | combine (error : CombineError)
  | notFound (id : Nat)
  | duplicateName (name : String)
  deriving DecidableEq

/-- The message on a failed call. -/
def RuleError.message : RuleError → String
  | parse error => s!"Parse error: {error.message}"
  | eval error => s!"Evaluation error: {error.message}"
  | combine error => s!"Combine error: {error.message}"
  | notFound id => s!"Rule not found: {id}"
  | duplicateName name => s!"Rule name already exists: {name}"

end Eligibility
