import Eligibility.Condition

/-!
# Combination

`Condition.combine` joins two or more conditions by `OR`, from the left. Every further
condition adds a level to what has been joined, so the depth is known before anything is built
(`depth_joinAll`).
-/

namespace Eligibility

/-- Why conditions cannot be combined. -/
inductive CombineError where
  | tooFew (found : Nat)
  | tooDeep (depth : Nat)
  deriving DecidableEq

/-- The message on a failed combination. -/
def CombineError.message : CombineError → String
  | tooFew found => s!"At least two rules are required for combination, got {found}"
  | tooDeep depth => s!"Combined rule would be {depth} levels deep, limit is {maxDepth}"

namespace Condition

/-- The condition that one of several holds. -/
def joinAll (first : Condition) (others : List Condition) : Condition :=
  others.foldl (join .or) first

/-- The depth of conditions joined from the left. -/
def joinedDepth (first : Condition) (others : List Condition) : Nat :=
  others.foldl (fun depth other => 1 + max depth other.depth) first.depth

theorem depth_joinAll (first : Condition) (others : List Condition) :
    (joinAll first others).depth = joinedDepth first others := by
  have step : ∀ (others : List Condition) (condition : Condition) (depth : Nat),
      condition.depth = depth → (others.foldl (join .or) condition).depth =
        others.foldl (fun depth other => 1 + max depth other.depth) depth := by
    intro others
    induction others with
    | nil => exact fun _ _ h => h
    | cons other others ih =>
      exact fun condition levels h => ih _ _ (congrArg (fun levels => 1 + max levels other.depth) h)
  exact step others first first.depth rfl

/-- Combines two or more conditions. -/
def combine : List Condition → Except CombineError Condition
  | first :: second :: others =>
    let depth := joinedDepth first (second :: others)
    if depth > maxDepth then .error (.tooDeep depth) else .ok (joinAll first (second :: others))
  | conditions => .error (.tooFew conditions.length)

end Condition

end Eligibility
