import Eligibility.Json.Lexeme

/-!
# Strings in JSON

A text that is written between quotes is read again as the same text : each character gives back
its own code point, whether or not it is escaped (`Json.stringUnits?_escapedChar`), and no
character is half of a surrogate pair (`Json.textOfUnits?_toNat`).
-/

namespace Eligibility

namespace Json

/-! ## Units -/

theorem hexDigit?_digitChar : ∀ n < 16, hexDigit? (Nat.digitChar n) = some n := by decide

/-- The last two of four hexadecimal digits are enough for a control character. -/
theorem hexUnit?_digitChar {n : Nat} (h : n < 0x20) :
    hexUnit? '0' '0' (Nat.digitChar (n / 16)) (Nat.digitChar (n % 16)) = some n := by
  have hzero : hexDigit? '0' = some 0 := by decide
  rw [hexUnit?, hzero, hexDigit?_digitChar _ (by omega), hexDigit?_digitChar _ (by omega)]
  simp
  omega

/-- A character gives its code point, however it is written. -/
theorem stringUnits?_escapedChar (c : Char) (rest : List Char) :
    stringUnits? (escapedChar c ++ rest) =
      (stringUnits? rest).map fun (units, rest) => (c.toNat :: units, rest) := by
  unfold escapedChar
  split
  case h_8 hquote hbackslash _ _ _ _ _ =>
    by_cases hc : c.toNat < 0x20
    · simp only [if_pos hc, List.cons_append, List.nil_append, stringUnits?, hexUnit?_digitChar hc]
      cases stringUnits? rest <;> rfl
    · simp only [if_neg hc, List.cons_append, List.nil_append]
      rw [stringUnits?]
      · rw [if_neg hc]
        cases stringUnits? rest <;> rfl
      all_goals simp_all
  all_goals
    simp only [List.cons_append, List.nil_append]
    rw [stringUnits?]
    · cases stringUnits? rest <;> rfl
    · simp

/-- The units of a text in quotes are its code points. -/
theorem stringUnits?_escaped (text rest : List Char) :
    stringUnits? (text.flatMap escapedChar ++ '"' :: rest) = some (text.map Char.toNat, rest) := by
  induction text with
  | nil => rw [List.flatMap_nil, List.nil_append, stringUnits?, List.map_nil]
  | cons c text ih =>
    rw [List.flatMap_cons, List.append_assoc, stringUnits?_escapedChar, ih]
    rfl

/-! ## Texts -/

/-- No character is half of a surrogate pair. -/
theorem not_isSurrogate (c : Char) : isLeading c.toNat = false ∧ isTrailing c.toNat = false := by
  have hvalid : c.toNat < 0xd800 ∨ 0xdfff < c.toNat ∧ c.toNat < 0x110000 := c.valid
  simp only [isLeading, isTrailing, Bool.and_eq_false_iff, decide_eq_false_iff_not]
  omega

/-- The code points of a text denote it. -/
theorem textOfUnits?_toNat (text : List Char) : textOfUnits? (text.map Char.toNat) = some text := by
  induction text with
  | nil => rw [List.map_nil, textOfUnits?]
  | cons c text ih =>
    obtain ⟨hleading, htrailing⟩ := not_isSurrogate c
    rw [List.map_cons, textOfUnits?.eq_def]
    simp [hleading, htrailing, ih, Char.ofNat_toNat]

namespace Lexeme

/-- A text in quotes is a lexeme. -/
theorem cut?_escaped (text rest : List Char) :
    cut? (escaped text ++ rest) = some (string (some (String.ofList text)), rest) := by
  have hquote : escaped text ++ rest = '"' :: (text.flatMap escapedChar ++ '"' :: rest) := by
    simp [escaped]
  rw [hquote, cut?, stringUnits?_escaped]
  simp [textOfUnits?_toNat]

end Lexeme

end Json

end Eligibility
