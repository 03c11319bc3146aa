import Eligibility.ConditionCache

/-!
# Calls of a condition cache

A `ConditionCache.Call` is a call of a cache as a value. `ConditionCache.call` makes one, and
`ConditionCache.run` makes several, each on the cache that the one before it left.
-/

namespace Eligibility

namespace ConditionCache

/-- A call with its arguments. -/
inductive Call where
  | get (text : String)
  | check (text : String) (record : Record)
  | contains (text : String)
  | size
  | clear
  deriving DecidableEq

/-- What a call answers. -/
inductive Answer where
  | read (result : Except RuleError Condition)
  | tested (result : Except RuleError Bool)
  | told (kept : Bool)
  | counted (count : Nat)
  | cleared

/-- Makes a call. -/
def call (cache : ConditionCache) : Call → Answer × ConditionCache
  | .get text =>
    let (result, cache) := cache.get text
    (.read result, cache)
  | .check text record =>
    let (result, cache) := cache.check text record
    (.tested result, cache)
  | .contains text => (.told (cache.contains text), cache)
  | .size => (.counted cache.size, cache)
  | .clear => (.cleared, .empty)

/-- Makes calls one after the other. -/
def run (cache : ConditionCache) : List Call → List Answer × ConditionCache
  | [] => ([], cache)
  | call :: calls =>
    let (answer, cache) := cache.call call
    let (answers, cache) := cache.run calls
    (answer :: answers, cache)

/-- The answers to calls. -/
def answers (cache : ConditionCache) (calls : List Call) : List Answer :=
  (cache.run calls).1

/-- The cache that calls leave. -/
def after (cache : ConditionCache) (calls : List Call) : ConditionCache :=
  (cache.run calls).2

section Run

variable (cache : ConditionCache) (c : Call) (calls : List Call)

@[simp] theorem answers_nil : cache.answers [] = [] := rfl

@[simp] theorem answers_cons :
    cache.answers (c :: calls) = (cache.call c).1 :: (cache.call c).2.answers calls := rfl

@[simp] theorem after_nil : cache.after [] = cache := rfl

@[simp] theorem after_cons : cache.after (c :: calls) = (cache.call c).2.after calls := rfl

end Run

end ConditionCache

end Eligibility
