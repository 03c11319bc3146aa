import Eligibility.Lexeme

/-!
# Reading conditions

The grammar of rules, over tokens :

* an expression is a term, followed by any number of connectives with a term each. Both
  connectives bind equally, and the terms are joined from the left;
* a term is an expression in parentheses, or a word, a comparator and a literal.

`Condition.parse` reads a whole text. There are two limits : parentheses go at most `maxDepth`
deep, which bounds the recursion (`term` is given the number of parentheses it may still open),
and the condition has at most `maxDepth` levels, which bounds the number of joins in a row
(`chain`).
-/

namespace Eligibility

/-- A condition read from the front of a row of tokens, with its depth and the tokens after it. -/
structure Reading where
  condition : Condition
  depth : Nat
  rest : List Token
  deriving DecidableEq

namespace Condition

/-- Reads a comparison. -/
def comparison : List Token → Except ParseError Reading
  | .word field :: .comparator symbol :: token :: rest =>
    match token.literal? with
    | some literal => .ok ⟨.compare ⟨field, .ofSymbol symbol, literal⟩, 1, rest⟩
    | none => .error (.expectedLiteral field symbol token)
  | [] | [.word _] | [.word _, .comparator _] => .error .unexpectedEnd
  | .word field :: found :: _ => .error (.expectedComparator field found)
  | found :: _ => .error (.expectedField found)

/-- Joins further terms, read by `term`, to what has been read. -/
def chain (term : List Token → Except ParseError Reading) (left : Reading) :
    Except ParseError Reading :=
  match left.rest with
  | .connective connective :: rest => do
    let right ← term rest
    if h : 1 + max left.depth right.depth ≤ maxDepth then
      chain term ⟨.join connective left.condition right.condition,
        1 + max left.depth right.depth, right.rest⟩
    else
      throw .tooDeep
  | _ => .ok left
termination_by maxDepth - left.depth
decreasing_by omega

/-- Reads a term in which at most `room` parentheses are open at a time. -/
def term (room : Nat) (tokens : List Token) : Except ParseError Reading :=
  match tokens with
  | .openParen :: inner =>
    match room with
    | 0 => .error .tooDeep
    | room + 1 => do
      let reading ← chain (term room) (← term room inner)
      match reading.rest with
      | .closeParen :: rest => return { reading with rest }
      | _ => throw .unclosedParenthesis
  | tokens => comparison tokens

/-- Reads an expression in which at most `room` parentheses are open at a time. -/
def expression (room : Nat) (tokens : List Token) : Except ParseError Reading := do
  chain (term room) (← term room tokens)

/-- The condition that a row of tokens states as a whole. -/
def ofTokens (tokens : List Token) : Except ParseError Condition := do
  let reading ← expression maxDepth tokens
  match reading.rest with
  | [] => return reading.condition
  | rest => throw (.trailing rest)

/-- The condition that a text states. -/
def parse (text : String) : Except ParseError Condition := do
  ofTokens (← Token.scan text)

end Condition

end Eligibility
