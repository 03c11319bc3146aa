import Eligibility.Proofs.CanonicalText

/-!
# Rows of tokens

Tokens in a row, with one space between two, are cut out of their text again exactly if each of
them is legible : a word that names a field, the symbol of a comparator, a text without quotes, a
number that is finite (`scan_rowText_iff`). The spaces separate all classes of tokens, so each token
is cut as it is on its own, whatever stands next to it. A number that is not finite is written as a
word and so is cut as that word (`reread`).

What is cut out of a text is legible but for such numbers (`isRead_of_mem_scan`). In particular
the words and the comparators in a text are cut in the same way on their own.
-/

namespace Eligibility

open Lexeme (Separates separates_nil separates_space)

variable {rest : List Char} {tokens : List Token}

namespace Token

/-- The spelling of the token means the token. -/
def IsLegible : Token → Prop
  | word text => isFieldName text = true
  | comparator symbol => isComparatorSymbol symbol = true
  | quoted text => '\x27' ∉ text.toList
  | number value => value.isFinite = true
  | _ => True

instance : DecidablePred IsLegible
  | word text => inferInstanceAs (Decidable (isFieldName text = true))
  | comparator symbol => inferInstanceAs (Decidable (isComparatorSymbol symbol = true))
  | quoted text => inferInstanceAs (Decidable ('\x27' ∉ text.toList))
  | number value => inferInstanceAs (Decidable (value.isFinite = true))
  | openParen | closeParen | connective _ => inferInstanceAs (Decidable True)

/-- The token is legible, or a number of whatever value. -/
def IsRead : Token → Prop
  | number _ => True
  | token => token.IsLegible

theorem IsLegible.isRead {token : Token} (h : token.IsLegible) : token.IsRead := by
  cases token with
  | number => trivial
  | openParen | closeParen | connective | comparator | word | quoted => exact h

/-- What the spelling of the token is cut into. -/
def reread : Token → Token
  | number value => (Literal.number value).token
  | token => token

theorem reread_eq_iff {token : Token} (h : token.IsRead) :
    token.reread = token ↔ token.IsLegible := by
  cases token with
  | number value =>
    rw [reread, Literal.token, IsLegible]
    by_cases hvalue : value.isFinite = true <;> simp [hvalue]
  | openParen | closeParen | connective | comparator | word | quoted => exact iff_of_true rfl h

/-- The tokens that are cut out of texts are legible, but for numbers that are not finite. -/
theorem isRead_of_mem_scan {text : String} (h : scan text = .ok tokens) {token : Token}
    (ht : token ∈ tokens) : token.IsRead := by
  obtain ⟨rest, lexeme, hcut, htoken⟩ := exists_cutBefore_of_mem_scan h ht
  cases token with
  | word name => exact isFieldName_iff.mpr ⟨rest, lexeme, hcut, htoken⟩
  | comparator symbol => exact isComparatorSymbol_iff.mpr ⟨rest, lexeme, hcut, htoken⟩
  | quoted text => exact hcut.quote_notMem (.inr htoken)
  | number | openParen | closeParen | connective => trivial

/-- The spelling of a token is cut in the same way before everything that goes on with no
lexeme. -/
theorem cut_toText_of_separates {token : Token} (h : token.IsRead) (hs : Separates rest) :
    cut (token.toText.toList ++ rest) = token.reread :: cut rest := by
  cases token with
  | openParen => exact cut_openParen
  | closeParen => exact cut_closeParen
  | connective c => exact cut_connective c hs
  | comparator symbol => exact cut_comparator h hs
  | word name => exact cut_field h hs
  | quoted text =>
    have hquote : (Literal.text text).HasNoQuote := h
    simpa [toText, reread, Literal.toText, Literal.token] using Literal.cut_toText hs hquote
  | number value =>
    have hquote : (Literal.number value).HasNoQuote := trivial
    simpa [toText, reread, Literal.toText] using Literal.cut_toText hs hquote

theorem rowText_cons (token next : Token) (tokens : List Token) :
    rowText (token :: next :: tokens) = token.toText ++ " " ++ rowText (next :: tokens) := by
  simp [rowText]

/-- The text of a row is cut into what its tokens are cut into. -/
theorem cut_rowText (h : ∀ token ∈ tokens, token.IsRead) :
    cut (rowText tokens).toList = tokens.map reread := by
  induction tokens with
  | nil => exact cut_nil
  | cons token tokens ih =>
    obtain ⟨htoken, htokens⟩ := List.forall_mem_cons.mp h
    cases tokens with
    | nil =>
      have hcut := cut_toText_of_separates htoken separates_nil
      rw [List.append_nil, cut_nil] at hcut
      simpa [rowText] using hcut
    | cons next tokens =>
      have htext : (rowText (token :: next :: tokens)).toList =
          token.toText.toList ++ ' ' :: (rowText (next :: tokens)).toList := by
        simp [rowText_cons]
      rw [htext, cut_toText_of_separates htoken separates_space, cut_space, ih htokens]
      rfl

/-- A row of tokens is cut out of its text exactly if its tokens are legible. -/
theorem scan_rowText_iff : scan (rowText tokens) = .ok tokens ↔
    tokens ≠ [] ∧ ∀ token ∈ tokens, token.IsLegible := by
  have hreread (h : ∀ token ∈ tokens, token.IsRead) :
      cut (rowText tokens).toList = tokens ↔ ∀ token ∈ tokens, token.IsLegible := by
    have hself : tokens.map reread = tokens ↔ ∀ token ∈ tokens, token.reread = token := by
      simpa using List.map_inj_left (f := reread) (g := id) (l := tokens)
    rw [cut_rowText h, hself]
    exact forall₂_congr fun token ht => reread_eq_iff (h token ht)
  constructor
  · intro h
    obtain ⟨hne, hcut⟩ := scan_eq_ok_iff.mp h
    exact ⟨hne, (hreread fun token => isRead_of_mem_scan h).mp hcut⟩
  · rintro ⟨hne, h⟩
    exact scan_eq_ok_iff.mpr ⟨hne, (hreread fun token ht => (h token ht).isRead).mpr h⟩

/-- Rows of tokens are cut out of their text again exactly if the tokens are legible, and the words
and comparators of a text are. -/
theorem scan_rowText :
    (∀ tokens, scan (rowText tokens) = .ok tokens ↔
      tokens ≠ [] ∧ ∀ token ∈ tokens, token.IsLegible) ∧
    ∀ text tokens, scan text = .ok tokens →
      (∀ name, .word name ∈ tokens → isFieldName name = true) ∧
      ∀ symbol, .comparator symbol ∈ tokens → isComparatorSymbol symbol = true :=
  ⟨fun _ => scan_rowText_iff, fun _ _ h =>
    ⟨fun _ hname => isRead_of_mem_scan h hname, fun _ hsymbol => isRead_of_mem_scan h hsymbol⟩⟩

/-- A row with a negative number and a text that holds a space; a word of the digits of another
script. -/
theorem scan_rowText_digits :
    scan "( a >= -3 ) OR 'b c'" = .ok [.openParen, .word "a", .comparator ">=",
      .number (.ofInt (-3)), .closeParen, .connective .or, .quoted "b c"] ∧
    scan "x=٣.٥" = .ok [.word "x", .comparator "=", .word "٣.٥"] ∧
    isFieldName "٣.٥" = true := by
  obtain ⟨hrow, hlegible⟩ := scan_rowText
  have hdigits : scan "x=٣.٥" = .ok [.word "x", .comparator "=", .word "٣.٥"] := by
    decide +kernel
  refine ⟨?_, hdigits, (hlegible _ _ hdigits).1 _ (by simp)⟩
  have htext : rowText [.openParen, .word "a", .comparator ">=", .number (.ofInt (-3)),
      .closeParen, .connective .or, .quoted "b c"] = "( a >= -3 ) OR 'b c'" := by decide +kernel
  rw [← htext]
  exact (hrow _).mpr (by decide +kernel)

end Token

end Eligibility
