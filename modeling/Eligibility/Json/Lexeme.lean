import Eligibility.Json.Text

/-!
# JSON lexemes

The punctuation, numbers, strings and names of a JSON text. `Json.Lexeme.scan?` cuts a text
into its lexemes, space between them aside, and `Json.Lexeme.text` spells one. A number is
strict: no plus and no needless zero before it, digits on both sides of the point.
-/

namespace Eligibility

namespace Numeral

/-- Reads the number after its sign at the start of a text, and the text after it. -/
def cutUnsigned? (negative : Bool) (text : List Char) : Option (Numeral × List Char) :=
  match text.takeWhile Char.isDigit, text.dropWhile Char.isDigit with
  | [], _ => none
  | '0' :: _ :: _, _ => none
  | whole, '.' :: rest =>
    match rest.takeWhile Char.isDigit with
    | [] => none
    | fraction => do
      let (exponent, rest) ← cutExponent? (rest.dropWhile Char.isDigit)
      return (⟨negative, whole, fraction, exponent⟩, rest)
  | whole, rest => do
    let (exponent, rest) ← cutExponent? rest
    return (⟨negative, whole, [], exponent⟩, rest)

/-- Reads the number at the start of a text, and the text after it. -/
def cutStrict? : List Char → Option (Numeral × List Char)
  | '-' :: rest => cutUnsigned? true rest
  | text => cutUnsigned? false text

theorem length_lt_of_cutUnsigned? {negative : Bool} {text rest : List Char} {numeral : Numeral}
    (h : cutUnsigned? negative text = some (numeral, rest)) : rest.length < text.length := by
  have split := congrArg List.length
    (List.takeWhile_append_dropWhile (p := Char.isDigit) (l := text))
  rw [List.length_append] at split
  unfold cutUnsigned? at h
  split at h
  · simp at h
  · simp at h
  · rename_i tail hd hne _
    have hpos := List.length_pos_iff.mpr hne
    have hle := (List.dropWhile_sublist Char.isDigit (l := tail)).length_le
    rw [hd, List.length_cons] at split
    split at h
    · simp at h
    · obtain ⟨⟨e, r⟩, hr, hs⟩ := Option.bind_eq_some_iff.mp h
      simp only [Option.pure_def, Option.some.injEq, Prod.mk.injEq] at hs
      have := length_le_of_cutExponent? hr
      rw [← hs.2]
      omega
  · rename_i hne _ _
    have hpos := List.length_pos_iff.mpr hne
    obtain ⟨⟨e, r⟩, hr, hs⟩ := Option.bind_eq_some_iff.mp h
    simp only [Option.pure_def, Option.some.injEq, Prod.mk.injEq] at hs
    have := length_le_of_cutExponent? hr
    rw [← hs.2]
    omega

theorem length_lt_of_cutStrict? {text rest : List Char} {numeral : Numeral}
    (h : cutStrict? text = some (numeral, rest)) : rest.length < text.length := by
  unfold cutStrict? at h
  split at h
  · have := length_lt_of_cutUnsigned? h
    simp only [List.length_cons]
    omega
  · exact length_lt_of_cutUnsigned? h

end Numeral

namespace Json

/-- A lexeme of JSON. -/
inductive Lexeme where
  | openArray
  | closeArray
  | openObject
  | closeObject
  | comma
  | colon
  | null
  | bool (value : Bool)
  | number (numeral : Numeral)
  | string (value? : Option String)

namespace Lexeme

/-- The space between lexemes. -/
def isSpace (c : Char) : Bool :=
  c == ' ' || c == '\t' || c == '\n' || c == '\r'

/-- The spelling of a lexeme. A string without a value has none of its own, and is spelled as
empty. -/
def text : Lexeme → List Char
  | openArray => ['[']
  | closeArray => [']']
  | openObject => ['\x7b']
  | closeObject => ['\x7d']
  | comma => [',']
  | colon => [':']
  | null => ['n', 'u', 'l', 'l']
  | bool true => ['t', 'r', 'u', 'e']
  | bool false => ['f', 'a', 'l', 's', 'e']
  | number numeral => numeral.toText
  | string value? => escaped (value?.getD "").toList

/-- The lexeme at the start of a text, and the text after it. -/
def cut? (text : List Char) : Option (Lexeme × List Char) :=
  match text with
  | '[' :: rest => some (openArray, rest)
  | ']' :: rest => some (closeArray, rest)
  | '\x7b' :: rest => some (openObject, rest)
  | '\x7d' :: rest => some (closeObject, rest)
  | ',' :: rest => some (comma, rest)
  | ':' :: rest => some (colon, rest)
  | 'n' :: 'u' :: 'l' :: 'l' :: rest => some (null, rest)
  | 't' :: 'r' :: 'u' :: 'e' :: rest => some (bool true, rest)
  | 'f' :: 'a' :: 'l' :: 's' :: 'e' :: rest => some (bool false, rest)
  | '"' :: rest => do
    let (units, rest) ← stringUnits? rest
    return (string ((textOfUnits? units).map String.ofList), rest)
  | text => do
    let (numeral, rest) ← Numeral.cutStrict? text
    return (number numeral, rest)

theorem length_lt_of_cut? {text rest : List Char} {lexeme : Lexeme}
    (h : cut? text = some (lexeme, rest)) : rest.length < text.length := by
  unfold cut? at h
  split at h
  case h_10 =>
    obtain ⟨⟨units, r⟩, hr, hs⟩ := Option.bind_eq_some_iff.mp h
    simp only [Option.pure_def, Option.some.injEq, Prod.mk.injEq] at hs
    have := length_lt_of_stringUnits? hr
    rw [← hs.2, List.length_cons]
    omega
  case h_11 =>
    obtain ⟨⟨numeral, r⟩, hr, hs⟩ := Option.bind_eq_some_iff.mp h
    simp only [Option.pure_def, Option.some.injEq, Prod.mk.injEq] at hs
    rw [← hs.2]
    exact Numeral.length_lt_of_cutStrict? hr
  all_goals
    simp only [Option.some.injEq, Prod.mk.injEq] at h
    rw [← h.2]
    simp only [List.length_cons]
    omega

/-- The lexemes of a text, if it consists of lexemes and space. -/
def scan? (text : List Char) : Option (List Lexeme) :=
  match text with
  | [] => some []
  | c :: rest =>
    if isSpace c then scan? rest
    else
      match _h : cut? (c :: rest) with
      | none => none
      | some (lexeme, rest) => (scan? rest).map (lexeme :: ·)
termination_by text.length
decreasing_by
  · simp
  · exact length_lt_of_cut? ‹_›

end Lexeme

end Json

end Eligibility
