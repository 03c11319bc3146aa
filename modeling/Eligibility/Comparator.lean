/-!
# Comparators

A comparator stands between a field and a literal. Rules may contain any run of the characters
`<`, `>`, `=` and `!` in its place; six of them are known, and the others are kept by their
symbol until a record is tested (`unknown`).
-/

namespace Eligibility

/-- How a field is compared with a literal. -/
inductive Comparator where
  | greater
  | less
  | equal
  | greaterEqual
  | lessEqual
  | notEqual
  | unknown (symbol : String)
  deriving DecidableEq

namespace Comparator

/-- The spelling in rules. -/
def symbol : Comparator → String
  | greater => ">"
  | less => "<"
  | equal => "="
  | greaterEqual => ">="
  | lessEqual => "<="
  | notEqual => "!="
  | unknown symbol => symbol

/-- The comparator of a spelling. -/
def ofSymbol (text : String) : Comparator :=
  if text = ">" then greater
  else if text = "<" then less
  else if text = "=" then equal
  else if text = ">=" then greaterEqual
  else if text = "<=" then lessEqual
  else if text = "!=" then notEqual
  else unknown text

/-- A spelling is kept as it is. -/
theorem symbol_ofSymbol (text : String) : (ofSymbol text).symbol = text := by
  unfold ofSymbol
  repeat' split
  all_goals simp_all [symbol]

end Comparator

end Eligibility
