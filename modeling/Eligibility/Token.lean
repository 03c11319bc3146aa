import Eligibility.Connective
import Eligibility.Literal

/-!
# Tokens

The words of the rule language. `Token.toText` is the spelling of a token; `Token.literal?`
says what a token means in a literal's place.
-/

namespace Eligibility

/-- A word of the rule language. -/
inductive Token where
  | openParen
  | closeParen
  | connective (connective : Connective)
  /-- A run of `<`, `>`, `=` and `!`. -/
  | comparator (symbol : String)
  /-- A field name, or a text without quotes. -/
  | word (text : String)
  /-- A text between single quotes, which are not part of it. -/
  | quoted (text : String)
  | number (value : Binary64)
  deriving DecidableEq

namespace Token

/-- The spelling of a token. -/
def toText : Token → String
  | openParen => "("
  | closeParen => ")"
  | connective c => c.keyword
  | comparator symbol => symbol
  | word text => text
  | quoted text => "'" ++ text ++ "'"
  | number value => value.toText

/-- The literal that a token stands for. -/
def literal? : Token → Option Literal
  | number value => some (.number value)
  | word text => some (.ofText text)
  | quoted text => some (.ofText text)
  | _ => none

/-- Tokens in a row, one space between two. -/
def rowText (tokens : List Token) : String :=
  " ".intercalate (tokens.map toText)

end Token

end Eligibility
