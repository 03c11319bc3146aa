import Eligibility.Condition.Parser
import Eligibility.RuleError
import Eligibility.TextMap

/-!
# The condition cache

A cache keeps the conditions of the texts that have been read, so that no text is read twice. A
text that states no condition is not kept. `ConditionCache.get` and `ConditionCache.check`
answer as if there were no cache.
-/

namespace Eligibility

/-- The conditions of texts read before. -/
structure ConditionCache where
  conditions : TextMap Condition

namespace ConditionCache

/-- The cache without texts. -/
def empty : ConditionCache := ⟨.empty⟩

/-- Whether the condition of a text is kept. -/
def contains (cache : ConditionCache) (text : String) : Bool :=
  cache.conditions.contains text

/-- The number of texts. -/
def size (cache : ConditionCache) : Nat :=
  cache.conditions.size

/-- The condition of a text, read if it is not kept yet. -/
def get (cache : ConditionCache) (text : String) : Except RuleError Condition × ConditionCache :=
  match cache.conditions.get? text with
  | some condition => (.ok condition, cache)
  | none =>
    match Condition.parse text with
    | .error error => (.error (.parse error), cache)
    | .ok condition => (.ok condition, ⟨cache.conditions.insert text condition⟩)

/-- Tests a record by the condition of a text. -/
def check (cache : ConditionCache) (text : String) (record : Record) :
    Except RuleError Bool × ConditionCache :=
  let (result, cache) := cache.get text
  (result.bind fun condition => (condition.eval record).mapError .eval, cache)

end ConditionCache

end Eligibility
