import Eligibility.Condition
import Eligibility.Token

/-!
# Why a rule cannot be read

Each constructor is one cause. Four of them are mistakes in the order of the tokens
(`ParseError.isMalformed`): no continuation of the text would mend them.
-/

namespace Eligibility

/-- The reason for which a text is no rule. -/
inductive ParseError where
  /-- The text holds no token at all. -/
  | noTokens
  | unclosedParenthesis
  | unexpectedEnd
  | expectedField (found : Token)
  | expectedComparator (field : String) (found : Token)
  | expectedLiteral (field symbol : String) (found : Token)
  /-- A rule ends before the text does. -/
  | trailing (rest : List Token)
  /-- There are more than `maxDepth` levels, or as many parentheses inside one another. -/
  | tooDeep
  deriving DecidableEq

namespace ParseError

/-- The order of the tokens is wrong. -/
def isMalformed : ParseError → Bool
  | expectedField _ | expectedComparator .. | expectedLiteral .. | trailing _ => true
  | _ => false

/-- What is wrong with the order of the tokens. -/
def detail : ParseError → String
  | expectedField found => s!"expected field name, found '{found.toText}'"
  | expectedComparator field found =>
    s!"expected comparison operator after '{field}', found '{found.toText}'"
  | expectedLiteral field symbol found =>
    s!"expected value after '{field} {symbol}', found '{found.toText}'"
  | trailing rest => s!"unexpected input after complete rule: '{Token.rowText rest}'"
  | _ => ""

/-- The message for the author of the rule. -/
def message : ParseError → String
  | noTokens => "Rule string is empty or contains no valid tokens"
  | unclosedParenthesis => "Missing closing parenthesis"
  | unexpectedEnd => "Unexpected end of rule string"
  | tooDeep => s!"Rule nests deeper than {maxDepth} levels"
  | malformed => s!"Malformed comparison: {malformed.detail}"

end ParseError

end Eligibility
