import Eligibility.Number.Plain
import Eligibility.Text.Blank

/-!
# Literals

A literal is what a field is compared with: a number or a text. `Literal.ofText` reads the text
that stands in a literal's place, in quotes or as a bare word: a finite numeral means a number,
blanks around it aside, and everything else means itself. `Literal.toText` writes a literal as
rules do, and `Literal.isExpressible` says for which literals that can be read back.
-/

namespace Eligibility

/-- A constant of a rule. -/
inductive Literal where
  | number (value : Binary64)
  | text (value : String)
  deriving DecidableEq

namespace Literal

/-- The number that a text denotes, if it is finite. -/
def finiteNumber? (text : String) : Option Binary64 :=
  ((Numeral.ofText? (trimBlanks text.toList)).map Numeral.value).filter Binary64.isFinite

/-- What a text means in a literal's place. -/
def ofText (text : String) : Literal :=
  match finiteNumber? text with
  | some value => number value
  | none => .text text

/-- A literal as rules write it; texts stand in single quotes. -/
def toText : Literal → String
  | number value => value.toText
  | text value => "'" ++ value ++ "'"

/-- Whether some rule text means this literal: a number has to be finite, and a text neither holds
a quote nor denotes a number. -/
def isExpressible : Literal → Bool
  | number value => value.isFinite
  | text value => !value.toList.contains '\x27' && ofText value == .text value

/-- Equality by value: numbers as numbers, texts as texts. -/
def sameAs : Literal → Literal → Bool
  | number x, number y => x.sameAs y
  | text s, text t => s == t
  | _, _ => false

end Literal

end Eligibility
