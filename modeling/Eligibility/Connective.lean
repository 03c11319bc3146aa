/-!
# Connectives

Conditions are joined by `AND` and `OR`. Only the keywords in capitals are connectives.
-/

namespace Eligibility

/-- What joins two conditions. -/
inductive Connective where
  | and
  | or
  deriving DecidableEq

namespace Connective

/-- The keyword of a connective. -/
def keyword : Connective → String
  | and => "AND"
  | or => "OR"

/-- The connective of a keyword. -/
def ofKeyword? (text : String) : Option Connective :=
  if text = "AND" then some and else if text = "OR" then some or else none

/-- The truth value of a join. -/
def apply : Connective → Bool → Bool → Bool
  | and, left, right => left && right
  | or, left, right => left || right

theorem ofKeyword?_keyword (c : Connective) : ofKeyword? c.keyword = some c := by
  cases c <;> rfl

/-- No other text is a keyword. -/
theorem eq_keyword_of_ofKeyword? {text : String} {c : Connective} (h : ofKeyword? text = some c) :
    text = c.keyword := by
  unfold ofKeyword? at h
  split at h
  · rename_i heq
    exact Option.some.inj h ▸ heq
  · split at h
    · rename_i heq
      exact Option.some.inj h ▸ heq
    · cases h

end Connective

end Eligibility
