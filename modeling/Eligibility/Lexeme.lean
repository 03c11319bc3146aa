import Eligibility.ParseError
import Eligibility.Text.WordChar

/-!
# Lexemes

A lexeme is a token together with the piece of text that it was cut from. `Lexeme.atStart?`
cuts the lexeme that begins at the start of a text, if there is one; the classes are

* a text between single quotes;
* a number: digits, with a fraction if digits follow the point, after an optional minus. It has
  to end where no word character follows, so `30abc` is a word;
* a parenthesis, a run of comparator characters, a word.

Every lexeme is as long as its class allows, and none is empty (`length_text_pos`).
`Lexeme.scan` cuts a whole text and passes over the characters at which no lexeme begins;
`Token.scan` is the list of its tokens, which must not be empty.
-/

namespace Eligibility

/-- A character of which comparators consist. -/
def isComparatorChar (c : Char) : Bool :=
  c == '<' || c == '>' || c == '=' || c == '!'

/-- A token and the text it was cut from. -/
structure Lexeme where
  token : Token
  text : List Char

namespace Lexeme

/-- Whether a word goes on here. -/
def continuesWord : List Char → Bool
  | [] => false
  | c :: _ => isWordChar c

/-- Digits at the start of a text, with a fraction if that ends outside a word. Without a fraction
the digits themselves have to end outside a word. -/
def digitsAtStart? (text : List Char) : Option (List Char) :=
  let digits := text.takeWhile isDecimalDigit
  if digits.isEmpty then none
  else
    match text.dropWhile isDecimalDigit with
    | '.' :: rest =>
      let fraction := rest.takeWhile isDecimalDigit
      if fraction.isEmpty || continuesWord (rest.dropWhile isDecimalDigit) then some digits
      else some (digits ++ '.' :: fraction)
    | rest => if continuesWord rest then none else some digits

/-- A number at the start of a text, with its sign. -/
def numberAtStart? : List Char → Option (List Char)
  | '-' :: rest => (digitsAtStart? rest).map ('-' :: ·)
  | text => digitsAtStart? text

/-- The token of a number's text. Digits of other scripts denote no number and make it a word. -/
def numberToken (text : List Char) : Token :=
  match Numeral.ofText? text with
  | some numeral => .number numeral.value
  | none => .word (String.ofList text)

/-- The token of a word: a connective if it is a keyword. -/
def wordToken (text : List Char) : Token :=
  match Connective.ofKeyword? (String.ofList text) with
  | some connective => .connective connective
  | none => .word (String.ofList text)

/-- The quoted text after an opening quote, if a closing one follows. -/
def quotedAtStart? (rest : List Char) : Option Lexeme :=
  let body := rest.takeWhile (· != '\x27')
  if rest.contains '\x27' then some ⟨.quoted (String.ofList body), '\x27' :: body ++ ['\x27']⟩
  else none

/-- The lexeme that begins at the start of a text. -/
def atStart? (text : List Char) : Option Lexeme :=
  match numberAtStart? text, text with
  | some number, _ => some ⟨numberToken number, number⟩
  | none, [] => none
  | none, c :: rest =>
    if c = '\x27' then quotedAtStart? rest
    else if c = '(' then some ⟨.openParen, [c]⟩
    else if c = ')' then some ⟨.closeParen, [c]⟩
    else if isComparatorChar c then
      let run := c :: rest.takeWhile isComparatorChar
      some ⟨.comparator (String.ofList run), run⟩
    else if isWordChar c then
      let run := c :: rest.takeWhile isWordChar
      some ⟨wordToken run, run⟩
    else none

theorem length_pos_of_digitsAtStart? {text digits : List Char}
    (h : digitsAtStart? text = some digits) : 0 < digits.length := by
  unfold digitsAtStart? at h
  cases hd : text.takeWhile isDecimalDigit with
  | nil => simp [hd] at h
  | cons c cs =>
    simp only [hd, List.isEmpty_cons, Bool.false_eq_true, if_false] at h
    split at h
    · split at h <;> · simp only [Option.some.injEq] at h; subst h; simp
    · split at h
      · simp at h
      · simp only [Option.some.injEq] at h; subst h; simp

theorem length_pos_of_numberAtStart? {text number : List Char}
    (h : numberAtStart? text = some number) : 0 < number.length := by
  unfold numberAtStart? at h
  split at h
  · obtain ⟨digits, -, rfl⟩ := Option.map_eq_some_iff.mp h
    simp
  · exact length_pos_of_digitsAtStart? h

/-- No lexeme is empty. -/
theorem length_text_pos {text : List Char} {lexeme : Lexeme} (h : atStart? text = some lexeme) :
    0 < lexeme.text.length := by
  unfold atStart? at h
  split at h
  · rename_i number hn
    simp only [Option.some.injEq] at h
    subst h
    exact length_pos_of_numberAtStart? hn
  · simp at h
  · rename_i c rest _
    repeat' split at h
    all_goals first | (simp only [Option.some.injEq] at h; subst h; simp) | skip
    · unfold quotedAtStart? at h
      split at h
      · simp only [Option.some.injEq] at h
        subst h
        simp
      · simp at h
    · simp at h

/-- All lexemes of a text, from left to right. -/
def scan (text : List Char) : List Lexeme :=
  match text with
  | [] => []
  | c :: rest =>
    match _h : atStart? (c :: rest) with
    | none => scan rest
    | some lexeme => lexeme :: scan ((c :: rest).drop lexeme.text.length)
termination_by text.length
decreasing_by
  · simp
  · have := length_text_pos ‹_›
    simp only [List.length_drop, List.length_cons]
    omega

end Lexeme

namespace Token

/-- The tokens of a text. -/
def scan (text : String) : Except ParseError (List Token) :=
  match (Lexeme.scan text.toList).map Lexeme.token with
  | [] => .error .noTokens
  | tokens => .ok tokens

/-- Whether a text is one word and so can name a field. -/
def isFieldName (text : String) : Bool :=
  match scan text with
  | .ok [.word name] => name == text
  | _ => false

/-- Whether a text is one run of comparator characters. -/
def isComparatorSymbol (text : String) : Bool :=
  match scan text with
  | .ok [.comparator run] => run == text
  | _ => false

end Token

end Eligibility
