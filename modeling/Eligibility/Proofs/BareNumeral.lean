import Eligibility.Proofs.ReadBack

/-!
# Bare numerals

A numeral between quotes means the number that it denotes. Without the quotes it is cut into
lexemes, and lexemes know less than numerals do : a point begins none, a plus begins none, a minus
begins one only before a number, and a power of ten makes a word of the digits before it. What
begins no lexeme is passed over, and the rest of the numeral is read as another one,
`Numeral.bare`.

`parse_bareNumeral` says when that does not matter. If a comparison with a bare numeral is read at
all, then as the comparison with the quoted one exactly if the numeral has a digit before its
point and not both a minus and a power of ten (`Numeral.IsBare`), or denotes zero.
-/

namespace Eligibility

open Lexeme (NumberBefore Separates)

namespace Numeral

variable {n : Numeral} {text : List Char}

/-- The numeral that remains of one without quotes. A number keeps its sign and its point; other
digits lose both, and a power of ten stays with them. -/
def bare (n : Numeral) : Numeral :=
  if n.whole ≠ [] ∧ n.exponent = none then n
  else ⟨false, n.whole ++ n.fraction, [], n.exponent⟩

/-- Nothing is lost without quotes : there is a digit before the point, and a minus only without a
power of ten. -/
def IsBare (n : Numeral) : Prop :=
  n.whole ≠ [] ∧ (n.negative = true → n.exponent = none)

/-- All digits are zero. -/
def IsZero (n : Numeral) : Prop :=
  digitsValue (n.whole ++ n.fraction) = 0

/-- A power of ten leaves the numeral in one piece : it is not negative, and no fraction stands
between it and digits before the point. -/
structure IsUnbroken (n : Numeral) : Prop where
  fraction : n.whole ≠ [] → n.exponent ≠ none → n.fraction = []
  power : 0 ≤ n.exponent.getD 0

/-- The token means the numeral in a literal's place. -/
inductive IsTokenOf (n : Numeral) : Token → Prop
  | number : IsTokenOf n (.number n.value)
  | word {text : List Char} : n.Spells text → IsTokenOf n (.word (String.ofList text))

theorem not_isBlank_of_isDigit {c : Char} (h : c.isDigit = true) : isBlank c = false :=
  Bool.eq_false_iff.mpr fun hb => by
    simpa [isWordChar_of_isDecimalDigit (isDecimalDigit_of_isDigit h)] using
      isWordChar_of_isBlank hb

theorem SpellsSign.not_isBlank {sign : List Char} {negative : Bool} (h : SpellsSign sign negative) :
    ∀ c ∈ sign, isBlank c = false := by
  cases h <;> simp <;> decide

theorem Spells.digits_ne_nil (h : n.Spells text) : n.whole ≠ [] ∨ n.fraction ≠ [] := by
  cases h with
  | mk _ _ _ hdigits _ => exact hdigits

/-- No blank stands in a numeral. -/
theorem Spells.not_isBlank (h : n.Spells text) : ∀ c ∈ text, isBlank c = false := by
  cases h with
  | mk hsign hwhole hpoint _ hpower =>
    intro c hc
    simp only [List.mem_append] at hc
    rcases hc with hc | hc | hc | hc
    · exact hsign.not_isBlank c hc
    · exact not_isBlank_of_isDigit (hwhole c hc)
    · cases hpoint with
      | absent => cases hc
      | point hdigits =>
        rcases List.mem_cons.mp hc with rfl | hc
        · decide
        · exact not_isBlank_of_isDigit (hdigits c hc)
    · cases hpower with
      | absent => cases hc
      | power he hsign hdigits =>
        simp only [List.mem_cons, List.mem_append] at hc
        rcases hc with rfl | hc | hc
        · rcases he with rfl | rfl <;> decide
        · exact hsign.not_isBlank c hc
        · exact not_isBlank_of_isDigit (hdigits.all c hc)

end Numeral

/-! ## Blanks -/

theorem trimBlanks_eq_self {text : List Char} (h : ∀ c ∈ text, isBlank c = false) :
    trimBlanks text = text := by
  have hstop : ∀ text' : List Char, (∀ c ∈ text', isBlank c = false) →
      startsWith isBlank text' = false := by
    intro text' h'
    cases text' with
    | nil => rfl
    | cons c text' => exact h' c (by simp)
  rw [trimBlanks, dropWhile_of_startsWith (hstop _ h),
    dropWhile_of_startsWith (hstop _ fun c hc => h c (List.mem_reverse.mp hc)),
    List.reverse_reverse]

/-- A text is what remains of it between blanks. -/
theorem exists_trimBlanks (text : List Char) : ∃ before after,
    text = before ++ (trimBlanks text ++ after) ∧
      (∀ c ∈ before, isBlank c = true) ∧ ∀ c ∈ after, isBlank c = true := by
  refine ⟨text.takeWhile isBlank, ((text.dropWhile isBlank).reverse.takeWhile isBlank).reverse,
    ?_, fun c hc => List.mem_takeWhile_imp hc, fun c hc => ?_⟩
  · rw [trimBlanks, ← List.reverse_append, List.takeWhile_append_dropWhile, List.reverse_reverse,
      List.takeWhile_append_dropWhile]
  · exact List.mem_takeWhile_imp (List.mem_reverse.mp hc)

theorem Lexeme.separates_blanks {blanks : List Char} (h : ∀ c ∈ blanks, isBlank c = true) :
    Separates blanks := by
  cases blanks with
  | nil => exact separates_nil
  | cons c blanks => exact separates_blank (h c (by simp))

/-! ## The lexemes of a bare numeral -/

namespace Lexeme

open Numeral (SpellsSign SpellsFraction Spells spellsSign_minus)

variable {rest whole point fraction digits : List Char}

theorem isRun_decimal (h : IsRun Char.isDigit digits) : IsRun isDecimalDigit digits :=
  h.imp fun _ => isDecimalDigit_of_isDigit

theorem isWordChar_of_isDigit {c : Char} (h : c.isDigit = true) : isWordChar c = true :=
  isWordChar_of_isDecimalDigit (isDecimalDigit_of_isDigit h)

/-- Digits end where a lexeme may end. -/
theorem numberBefore_digits (h : IsRun Char.isDigit digits) (hs : Separates rest) :
    NumberBefore rest digits :=
  have alone : NumberBefore [] digits := .whole (isRun_decimal h) rfl fun _ _ heq => nomatch heq
  alone.of_startsWith hs.word hs.point

/-- A point that no digit follows does not belong to the number before it. -/
theorem numberBefore_point (h : IsRun Char.isDigit whole)
    (hrest : startsWith isDecimalDigit rest = false) : NumberBefore ('.' :: rest) whole := by
  refine .whole (isRun_decimal h) rfl fun digits tail heq hdigits => ?_
  obtain ⟨c, digits, rfl⟩ := List.exists_cons_of_ne_nil hdigits.ne_nil
  rw [(List.cons.inj heq).2, List.cons_append, startsWith_cons, hdigits.all c (by simp)] at hrest
  cases hrest

theorem class_of_letter {letter : Char} (he : letter = 'e' ∨ letter = 'E') :
    isWordChar letter = true ∧ isDecimalDigit letter = false := by
  rcases he with rfl | rfl <;> decide

/-- A fraction that runs into a power of ten does not belong to the number before it. -/
theorem numberBefore_power {letter : Char} (he : letter = 'e' ∨ letter = 'E')
    (hwhole : IsRun Char.isDigit whole) (hfraction : ∀ c ∈ fraction, c.isDigit = true) :
    NumberBefore ('.' :: (fraction ++ letter :: rest)) whole := by
  have hletter := class_of_letter he
  refine .whole (isRun_decimal hwhole) rfl fun digits tail heq hdigits => ?_
  -- the digits after the point end with the fraction or within it
  rcases List.append_eq_append_iff.mp (List.cons.inj heq).2 with
    ⟨more, rfl, hmore⟩ | ⟨more, rfl, rfl⟩
  · cases more with
    | nil =>
      rw [List.nil_append] at hmore
      rw [← hmore, startsWith_cons]
      exact hletter.1
    | cons c more =>
      have hdigit := hdigits.all c (by simp)
      rw [← (List.cons.inj hmore).1, hletter.2] at hdigit
      cases hdigit
  · cases more with
    | nil => exact hletter.1
    | cons c more => exact isWordChar_of_isDigit (hfraction c (by simp))

/-- The token of digits, with or without a minus and a fraction. -/
theorem numberToken_decimal (negative : Bool) (hwhole : IsRun Char.isDigit whole)
    (hpoint : SpellsFraction point fraction) :
    numberToken ((if negative then ['-'] else []) ++ (whole ++ point)) =
      .number (Numeral.value ⟨negative, whole, fraction, none⟩) := by
  have hspells := Spells.mk (spellsSign_minus negative) hwhole.all hpoint (.inl hwhole.ne_nil)
    .absent
  rw [List.append_nil] at hspells
  rw [numberToken, hspells.ofText?]

/-- Neither keyword holds the letter of a power of ten. -/
theorem wordToken_power {letter : Char} {run : List Char} (he : letter = 'e' ∨ letter = 'E')
    (h : letter ∈ run) : wordToken run = .word (String.ofList run) := by
  unfold wordToken
  split
  · rename_i c hc
    have hkeyword := congrArg String.toList (Connective.eq_keyword_of_ofKeyword? hc)
    rw [String.toList_ofList] at hkeyword
    rw [hkeyword] at h
    rcases he with rfl | rfl <;> cases c <;> exact absurd h (by decide)
  · rfl

end Lexeme

/-! ## The tokens of a bare numeral -/

namespace Token

open Lexeme
open Numeral (SpellsSign SpellsFraction SpellsExponent Spells)

variable {rest sign whole point fraction power digits : List Char} {negative : Bool}

/-- A sign before no number is passed over. -/
theorem cut_sign (hsign : SpellsSign sign negative) (h : digitsAtStart? rest = none) :
    cut (sign ++ rest) = cut rest := by
  cases hsign with
  | absent => rfl
  | plus => exact cut_gap (by decide)
  | minus => exact cut_minus h

/-- Of the signs before a number only the minus belongs to it. -/
theorem cut_signed {number : List Char} (hsign : SpellsSign sign negative)
    (h : NumberBefore rest number) : cut (sign ++ (number ++ rest)) =
      numberToken ((if negative then ['-'] else []) ++ number) :: cut rest := by
  have hnumber := cut_of_cutBefore (.number h)
  cases hsign with
  | absent => exact hnumber
  | plus => exact (cut_gap (by decide)).trans hnumber
  | minus => exact cut_of_cutBefore (.negative h)

/-- A point before the digits is passed over, and the sign before it too. -/
theorem cut_point (hsign : SpellsSign sign negative) : cut (sign ++ '.' :: rest) = cut rest :=
  (cut_sign hsign (digitsAtStart?_of_startsWith startsWith_point)).trans (cut_gap (by decide))

/-- A whole number ends before a point that does not belong to it. -/
theorem cut_whole_point (hsign : SpellsSign sign negative) (hwhole : IsRun Char.isDigit whole)
    (h : NumberBefore ('.' :: rest) whole) : cut (sign ++ (whole ++ '.' :: rest)) =
      .number (Numeral.value ⟨negative, whole, [], none⟩) :: cut rest := by
  have hvalue := numberToken_decimal negative hwhole .absent
  rw [List.append_nil] at hvalue
  rw [cut_signed hsign h, hvalue, cut_gap (by decide)]

/-- Digits that a sign may precede and a fraction may follow are a number. -/
theorem cut_decimal (hsign : SpellsSign sign negative) (hwhole : IsRun Char.isDigit whole)
    (hpoint : SpellsFraction point fraction) (hs : Separates rest) :
    cut (sign ++ (whole ++ (point ++ rest))) =
      .number (Numeral.value ⟨negative, whole, fraction, none⟩) :: cut rest := by
  have hvalue := numberToken_decimal negative hwhole hpoint
  cases hpoint with
  | absent =>
    rw [List.append_nil] at hvalue
    rw [List.nil_append, cut_signed hsign (numberBefore_digits hwhole hs), hvalue]
  | point hdigits =>
    by_cases hempty : fraction = []
    · subst hempty
      exact cut_whole_point hsign hwhole
        (numberBefore_point hwhole (startsWith_digit_of_word hs.word))
    · have hrun : IsRun Char.isDigit fraction := ⟨hempty, hdigits⟩
      have hnumber := NumberBefore.fraction (isRun_decimal hwhole) (isRun_decimal hrun) hs.word
      have hcut := cut_signed hsign hnumber
      rw [hvalue] at hcut
      simpa using hcut

/-- Digits with the letter of a power of ten among them are a word. -/
theorem cut_powerWord {letter : Char} {size : List Char} (he : letter = 'e' ∨ letter = 'E')
    (hdigits : ∀ c ∈ digits, c.isDigit = true) (hsize : ∀ c ∈ size, c.isDigit = true)
    (hrest : startsWith isWordChar rest = false) : cut (digits ++ letter :: (size ++ rest)) =
      .word (String.ofList (digits ++ letter :: size)) :: cut rest := by
  have hletter := class_of_letter he
  have hmem : letter ∈ digits ++ letter :: size := by simp
  have hall : IsRun isWordChar (digits ++ letter :: size) := by
    refine ⟨by simp, fun c hc => ?_⟩
    rcases List.mem_append.mp hc with hc | hc
    · exact isWordChar_of_isDigit (hdigits c hc)
    · rcases List.mem_cons.mp hc with rfl | hc
      · exact hletter.1
      · exact isWordChar_of_isDigit (hsize c hc)
  have hnumber : ¬IsRun isDecimalDigit (digits ++ letter :: size) := fun h => by
    simpa [hletter.2] using h.all letter hmem
  simpa [wordToken_power he hmem] using cut_of_cutBefore (.word hall hnumber hrest)

/-- Digits that run into a power of ten make a word. If the power has a sign, a number follows. -/
theorem cut_power {e : Int} (hdigits : ∀ c ∈ digits, c.isDigit = true)
    (hpower : SpellsExponent power (some e)) (hs : Separates rest) :
    (∃ word value, cut (digits ++ (power ++ rest)) = .word word :: .number value :: cut rest) ∨
      0 ≤ e ∧
        cut (digits ++ (power ++ rest)) = .word (String.ofList (digits ++ power)) :: cut rest := by
  cases hpower with
  | @power letter sign size negative he hsign hsize =>
    have hnumber : ∀ {sign : List Char}, SpellsSign sign negative →
        ∃ value, cut (sign ++ (size ++ rest)) = .number value :: cut rest := fun hsign =>
      ⟨_, by simpa using cut_decimal hsign hsize .absent hs⟩
    have hword : ∀ c, isWordChar c = false →
        ∃ word, cut (digits ++ (letter :: c :: size ++ rest)) =
          .word word :: cut (c :: size ++ rest) := by
      intro c hc
      have hnone : ∀ c ∈ ([] : List Char), c.isDigit = true := by simp
      have hrest : startsWith isWordChar (c :: (size ++ rest)) = false := hc
      exact ⟨_, by simpa using cut_powerWord he hdigits hnone hrest⟩
    cases hsign with
    | absent =>
      refine .inr ⟨by simp, ?_⟩
      simpa using cut_powerWord he hdigits hsize.all hs.word
    | plus =>
      obtain ⟨value, hvalue⟩ := hnumber .plus
      obtain ⟨word, hword⟩ := hword '+' (by decide)
      exact .inl ⟨word, value, hword.trans (congrArg _ hvalue)⟩
    | minus =>
      obtain ⟨value, hvalue⟩ := hnumber .minus
      obtain ⟨word, hword⟩ := hword '-' (by decide)
      exact .inl ⟨word, value, hword.trans (congrArg _ hvalue)⟩

/-- A literal is followed by a token that no condition goes on with. -/
def GoesOn (tokens : List Token) : Prop :=
  ∃ token literal next more, tokens = token :: next :: more ∧ token.literal? = some literal ∧
    ∀ c, next ≠ .connective c

/-- Digits with a power of ten are one token, unless the power has a sign. -/
theorem cut_digits_power {e : Int} (hdigits : IsRun Char.isDigit digits)
    (hpower : SpellsExponent power (some e)) (hs : Separates rest) (hend : cut rest = []) :
    GoesOn (cut (digits ++ (power ++ rest))) ∨ 0 ≤ e ∧
      ∃ token, cut (digits ++ (power ++ rest)) = [token] ∧
        Numeral.IsTokenOf ⟨false, digits, [], some e⟩ token := by
  rcases cut_power hdigits.all hpower hs with ⟨word, value, hcut⟩ | ⟨he, hcut⟩
  · exact .inl ⟨.word word, .ofText word, .number value, _, hcut, rfl, fun c heq => nomatch heq⟩
  · rw [hend] at hcut
    have hspells := Spells.mk .absent hdigits.all .absent (.inl hdigits.ne_nil) hpower
    exact .inr ⟨he, _, hcut, .word hspells⟩

/-- A number whose fraction runs into a power of ten is cut at the point. -/
theorem goesOn_fraction_power {e : Int} (hsign : SpellsSign sign negative)
    (hwhole : IsRun Char.isDigit whole) (hfraction : ∀ c ∈ fraction, c.isDigit = true)
    (hpower : SpellsExponent power (some e)) (hs : Separates rest) :
    GoesOn (cut (sign ++ (whole ++ '.' :: (fraction ++ (power ++ rest))))) := by
  have hnumber : NumberBefore ('.' :: (fraction ++ (power ++ rest))) whole := by
    cases hpower with
    | power he => exact numberBefore_power he hwhole hfraction
  have hword : ∃ word more, cut (fraction ++ (power ++ rest)) = .word word :: more := by
    rcases cut_power hfraction hpower hs with ⟨word, value, hcut⟩ | ⟨-, hcut⟩
    · exact ⟨word, _, hcut⟩
    · exact ⟨_, _, hcut⟩
  obtain ⟨word, more, hword⟩ := hword
  have hcut := cut_whole_point hsign hwhole hnumber
  rw [hword] at hcut
  exact ⟨_, _, _, _, hcut, rfl, fun c heq => nomatch heq⟩

/-- The tokens are cut from the bare numeral : a single one that means `Numeral.bare` of it, or a
literal with more behind it. -/
def IsCutBare (n : Numeral) (tokens : List Token) : Prop :=
  GoesOn tokens ∨ n.IsUnbroken ∧ ∃ token, tokens = [token] ∧ n.bare.IsTokenOf token

/-- Without a power of ten, digits after a point alone are a whole number. -/
theorem isCutBare_none (hsign : SpellsSign sign negative) (hwhole : ∀ c ∈ whole, c.isDigit = true)
    (hpoint : SpellsFraction point fraction) (hdigits : whole ≠ [] ∨ fraction ≠ [])
    (hs : Separates rest) (hend : cut rest = []) :
    IsCutBare ⟨negative, whole, fraction, none⟩ (cut (sign ++ (whole ++ (point ++ rest)))) := by
  refine .inr ⟨⟨by simp, by simp⟩, ?_⟩
  by_cases hempty : whole = []
  · subst hempty
    have hfraction : fraction ≠ [] := by simpa using hdigits
    cases hpoint with
    | absent => exact absurd rfl hfraction
    | point hall =>
      have hcut := cut_decimal .absent ⟨hfraction, hall⟩ .absent hs
      rw [hend] at hcut
      exact ⟨_, (cut_point hsign).trans hcut, .number⟩
  · have hcut := cut_decimal hsign ⟨hempty, hwhole⟩ hpoint hs
    have hbare : Numeral.bare ⟨negative, whole, fraction, none⟩ =
        ⟨negative, whole, fraction, none⟩ := if_pos ⟨hempty, rfl⟩
    rw [hend] at hcut
    rw [hbare]
    exact ⟨_, hcut, .number⟩

/-- With a power of ten, the digits next to it keep it and lose what stands before them. -/
theorem isCutBare_some {e : Int} (hsign : SpellsSign sign negative)
    (hwhole : ∀ c ∈ whole, c.isDigit = true) (hpoint : SpellsFraction point fraction)
    (hdigits : whole ≠ [] ∨ fraction ≠ []) (hpower : SpellsExponent power (some e))
    (hs : Separates rest) (hend : cut rest = []) :
    IsCutBare ⟨negative, whole, fraction, some e⟩
      (cut (sign ++ (whole ++ (point ++ (power ++ rest))))) := by
  have hbare : Numeral.bare ⟨negative, whole, fraction, some e⟩ =
      ⟨false, whole ++ fraction, [], some e⟩ := by simp [Numeral.bare]
  rw [IsCutBare, hbare]
  cases hpoint with
  | absent =>
    have hrun : IsRun Char.isDigit whole := ⟨by simpa using hdigits, hwhole⟩
    have hnone : digitsAtStart? (whole ++ (power ++ rest)) = none := by
      cases hpower with
      | power he =>
        exact digitsAtStart?_word (isRun_decimal hrun) (class_of_letter he).2
          (class_of_letter he).1
    rw [List.nil_append, cut_sign hsign hnone, List.append_nil]
    refine (cut_digits_power hrun hpower hs hend).imp_right fun ⟨he, token, hcut, htoken⟩ => ?_
    exact ⟨⟨by simp, he⟩, token, hcut, htoken⟩
  | point hfraction =>
    by_cases hempty : whole = []
    · subst hempty
      have hrun : IsRun Char.isDigit fraction := ⟨by simpa using hdigits, hfraction⟩
      rw [List.nil_append, List.nil_append, List.cons_append, cut_point hsign]
      refine (cut_digits_power hrun hpower hs hend).imp_right fun ⟨he, token, hcut, htoken⟩ => ?_
      exact ⟨⟨by simp, he⟩, token, hcut, htoken⟩
    · exact .inl (goesOn_fraction_power hsign ⟨hempty, hwhole⟩ hfraction hpower hs)

theorem isCutBare_of_spells {n : Numeral} {text : List Char} (h : n.Spells text)
    (hs : Separates rest) (hend : cut rest = []) : IsCutBare n (cut (text ++ rest)) := by
  cases h with
  | @mk sign whole point fraction power negative exponent hsign hwhole hpoint hdigits hpower =>
    simp only [List.append_assoc]
    cases exponent with
    | none =>
      cases hpower
      exact isCutBare_none hsign hwhole hpoint hdigits hs hend
    | some e => exact isCutBare_some hsign hwhole hpoint hdigits hpower hs hend

/-- Blanks around a bare numeral make no difference. -/
theorem isCutBare_of_ofText? {n : Numeral} {text : List Char}
    (h : Numeral.ofText? (trimBlanks text) = some n) : IsCutBare n (cut text) := by
  obtain ⟨before, after, htext, hbefore, hafter⟩ := exists_trimBlanks text
  have hend : cut (after ++ []) = [] := (cut_blanks hafter).trans cut_nil
  rw [List.append_nil] at hend
  have hcut := isCutBare_of_spells (Numeral.spells_of_ofText? h) (separates_blanks hafter)
    hend
  rwa [htext, cut_blanks hbefore]

end Token

/-! ## The literal of a bare numeral -/

theorem Literal.exists_numeral_of_ofText {text : String} {value : Binary64}
    (h : ofText text = number value) :
    ∃ n, Numeral.ofText? (trimBlanks text.toList) = some n ∧ n.value = value := by
  unfold ofText at h
  split at h
  · rename_i x hx
    obtain rfl := Literal.number.inj h
    exact Option.map_eq_some_iff.mp (Option.filter_eq_some_iff.mp hx).1
  · cases h

theorem Literal.ofText_of_spells {n : Numeral} {text : List Char} (h : n.Spells text) :
    ofText (String.ofList text) =
      if n.value.isFinite then number n.value else .text (String.ofList text) := by
  have hnumber : finiteNumber? (String.ofList text) =
      (some n.value).filter Binary64.isFinite := by
    rw [finiteNumber?, String.toList_ofList, trimBlanks_eq_self h.not_isBlank, h.ofText?,
      Option.map_some]
  rw [ofText, hnumber, Option.filter_some]
  cases n.value.isFinite <;> rfl

namespace Numeral

variable {n : Numeral}

/-- The literal is the number of the numeral, or a text if that is not finite. -/
def IsLiteralOf (n : Numeral) (literal : Literal) : Prop :=
  literal = .number n.value ∨ n.value.isFinite = false ∧ ∃ s, literal = .text s

theorem IsTokenOf.exists_literal {token : Token} (h : n.IsTokenOf token) :
    ∃ literal, token.literal? = some literal ∧ n.IsLiteralOf literal := by
  cases h with
  | number => exact ⟨_, rfl, .inl rfl⟩
  | word hspells =>
    refine ⟨_, rfl, ?_⟩
    rw [Literal.ofText_of_spells hspells]
    cases hfinite : n.value.isFinite with
    | true => exact .inl (if_pos rfl)
    | false => exact .inr ⟨hfinite, _, if_neg Bool.false_ne_true⟩

/-! ### Values -/

theorem bare_of_isBare (h : n.IsBare) (hn : n.IsUnbroken) : n.bare = n := by
  unfold bare
  split
  · rfl
  · rename_i hpower
    have hexponent : n.exponent ≠ none := fun he => hpower ⟨h.1, he⟩
    have hplus : n.negative = false := Bool.eq_false_iff.mpr fun hm => hexponent (h.2 hm)
    have hfraction := hn.fraction h.1 hexponent
    obtain ⟨negative, whole, fraction, exponent⟩ := n
    cases hfraction
    cases hplus
    rw [List.append_nil]

/-- A numeral that loses its sign or its point becomes a whole number. -/
theorem bare_value (h : ¬n.IsBare) : n.bare.value =
    .signed false (.ofDecimal (digitsValue (n.whole ++ n.fraction)) (n.exponent.getD 0)) := by
  have hne : ¬(n.whole ≠ [] ∧ n.exponent = none) := fun hn => h ⟨hn.1, fun _ => hn.2⟩
  rw [bare, if_neg hne]
  simp [value]

theorem value_of_isZero (h : n.IsZero) : n.value = .signed n.negative .zero := by
  have hdigits : digitsValue (n.whole ++ n.fraction) = 0 := h
  rw [value, hdigits, Magnitude.ofDecimal_zero]

theorem bare_value_of_isZero (h : n.IsZero) (hb : ¬n.IsBare) :
    n.bare.value = .signed false .zero := by
  have hdigits : digitsValue (n.whole ++ n.fraction) = 0 := h
  rw [bare_value hb, hdigits, Magnitude.ofDecimal_zero]

end Numeral

/-- A positive number is not the same as a lesser one or a negative one. -/
theorem Binary64.sameAs_eq_false {m m' : Magnitude} {negative : Bool}
    (h : m'.rank < m.rank ∨ negative = true ∧ 0 < m.rank) :
    (signed false m).sameAs (signed negative m') = false := by
  have hposition : ∃ i : Int, (signed negative m').position? = some i ∧ i < m.rank := by
    cases negative with
    | false => exact ⟨m'.rank, rfl, by simpa using h⟩
    | true => exact ⟨-m'.rank, rfl, by omega⟩
  obtain ⟨i, hi, hless⟩ := hposition
  have hgt : compare (m.rank : Int) i = .gt := compare_gt_iff_gt.mpr hless
  have hcompare : (signed false m).compare? (signed negative m') = some .gt := by
    rw [compare?, hi, ← hgt]
    rfl
  rw [sameAs, hcompare]
  rfl

namespace Numeral

variable {n : Numeral}

/-- The whole number that remains of a numeral other than zero is greater than its value. -/
theorem bare_value_sameAs (hn : n.IsUnbroken) (hdigits : n.whole ≠ [] ∨ n.fraction ≠ [])
    (hfinite : n.value.isFinite = true) (hb : ¬n.IsBare) (hz : ¬n.IsZero) :
    n.bare.value.sameAs n.value = false := by
  obtain ⟨power, hpower⟩ := Int.eq_ofNat_of_zero_le hn.power
  rw [bare_value hb]
  rw [value, hpower] at hfinite ⊢
  refine Binary64.sameAs_eq_false ?_
  by_cases hwhole : n.whole = []
  · -- the point that is lost stood before digits
    have hfraction : n.fraction ≠ [] := hdigits.resolve_left (not_not_intro hwhole)
    exact .inl (Magnitude.rank_ofDecimal_sub_lt hz (List.length_pos_iff.mpr hfraction) hfinite)
  · -- the sign that is lost is a minus
    have hminus : n.negative = true := by
      by_contra hplus
      exact hb ⟨hwhole, fun hm => absurd hm hplus⟩
    have hone := Magnitude.oneRank_le_rank_ofDecimal hz power
    exact .inr ⟨hminus, Nat.lt_of_lt_of_le (by decide) hone⟩

/-- The literal of a bare numeral is its number exactly if the numeral keeps its sign and its point
or denotes zero. -/
theorem isLiteralOf_bare {literal : Literal} (h : n.bare.IsLiteralOf literal) (hn : n.IsUnbroken)
    (hdigits : n.whole ≠ [] ∨ n.fraction ≠ []) (hfinite : n.value.isFinite = true) :
    (literal = .number n.value ↔ n.IsBare ∨ n.IsZero ∧ n.negative = false) ∧
      (literal.sameAs (.number n.value) = true ↔ n.IsBare ∨ n.IsZero) := by
  by_cases hb : n.IsBare
  · rw [bare_of_isBare hb hn] at h
    obtain rfl : literal = .number n.value := h.resolve_right fun hr => by simp [hfinite] at hr
    have hsame : (Literal.number n.value).sameAs (.number n.value) = true :=
      Binary64.sameAs_self hfinite
    simp [hb, hsame]
  · by_cases hz : n.IsZero
    · rw [IsLiteralOf, bare_value_of_isZero hz hb] at h
      have hzero : (Binary64.signed false .zero).isFinite = true := by decide
      obtain rfl : literal = .number (.signed false .zero) := h.resolve_right fun hr => by
        simp [hzero] at hr
      rw [value_of_isZero hz]
      cases n.negative <;> simp [hb, hz, Literal.sameAs] <;> decide
    · have hne : literal.sameAs (.number n.value) = false := by
        rcases h with rfl | ⟨-, s, rfl⟩
        · exact bare_value_sameAs hn hdigits hfinite hb hz
        · rfl
      have hne' : literal ≠ .number n.value := by
        rintro rfl
        rw [Literal.sameAs, Binary64.sameAs_self hfinite] at hne
        cases hne
      simp [hb, hz, hne, hne']

end Numeral

/-! ## Comparisons with a bare numeral -/

namespace Condition

variable {field symbol : String} {t : Condition}

/-- A comparison after whose literal a token follows that is no connective is not read. -/
theorem ofTokens_goesOn {tokens : List Token} (h : Token.GoesOn tokens) :
    ofTokens (.word field :: .comparator symbol :: tokens) ≠ .ok t := by
  obtain ⟨token, literal, next, more, rfl, hliteral, hnext⟩ := h
  have hread := read_append (.single (derives_of_literal? field symbol hliteral)) maxDepth
    (next :: more)
  intro hok
  obtain ⟨reading, hreading, hend⟩ := bind_eq_ok_iff.mp hok
  have hreading' := hread.symm.trans hreading
  split at hreading'
  · rw [Phrase.resume, chain_stop _ fun c rest heq => hnext c (List.cons.inj heq).1] at hreading'
    obtain rfl := Except.ok.inj hreading'
    cases hend
  · cases hreading'

/-- A literal between quotes means what its text does. -/
theorem parse_quoted (hfield : Token.isFieldName field = true)
    (hsymbol : Token.isComparatorSymbol symbol = true) {text : String}
    (hquote : '\x27' ∉ text.toList) :
    parse (field ++ " " ++ symbol ++ " " ++ ("'" ++ text ++ "'")) =
      .ok (compare ⟨field, .ofSymbol symbol, .ofText text⟩) := by
  have hliteral : (Literal.text text).HasNoQuote := hquote
  have hcut := Literal.cut_toText Lexeme.separates_nil hliteral
  rw [List.append_nil, Token.cut_nil] at hcut
  exact parse_comparison hfield hsymbol hcut rfl

/-- A numeral between quotes means its number. Without the quotes, if it is read at all, it means
what `Numeral.bare` of it does, which is the same number exactly if the numeral has a digit before
its point and not both a minus and a power of ten, or is zero and has no minus. By value the sign
of zero does not matter. -/
theorem parse_bareNumeral {text : String} {value : Binary64}
    (hfield : Token.isFieldName field = true) (hsymbol : Token.isComparatorSymbol symbol = true)
    (hquote : '\x27' ∉ text.toList) (hvalue : Literal.ofText text = .number value)
    (h : parse (field ++ " " ++ symbol ++ " " ++ text) = .ok t) :
    parse (field ++ " " ++ symbol ++ " " ++ ("'" ++ text ++ "'")) =
      .ok (compare ⟨field, .ofSymbol symbol, .number value⟩) ∧
    ∃ n literal, Numeral.ofText? (trimBlanks text.toList) = some n ∧
      t = compare ⟨field, .ofSymbol symbol, literal⟩ ∧ n.bare.IsLiteralOf literal ∧
      (literal = .number value ↔ n.IsBare ∨ n.IsZero ∧ n.negative = false) ∧
      (literal.sameAs (.number value) = true ↔ n.IsBare ∨ n.IsZero) := by
  refine ⟨hvalue ▸ parse_quoted hfield hsymbol hquote, ?_⟩
  obtain ⟨n, hnumeral, rfl⟩ := Literal.exists_numeral_of_ofText hvalue
  have hfront := cut_comparison hfield hsymbol text []
  rw [List.append_nil, List.append_nil] at hfront
  have hscan := Token.scan_eq_ok_iff.mpr ⟨List.cons_ne_nil _ _, hfront⟩
  rw [parse, hscan] at h
  have hread : ofTokens (.word field :: .comparator symbol :: Token.cut text.toList) = .ok t := h
  rcases Token.isCutBare_of_ofText? hnumeral with hgoes | ⟨hn, token, hcut, htoken⟩
  · exact absurd hread (ofTokens_goesOn hgoes)
  · obtain ⟨literal, hliteral, hmeans⟩ := htoken.exists_literal
    have hderives := Derives.single (derives_of_literal? field symbol hliteral)
    rw [hcut, ofTokens_of_derives hderives] at hread
    split at hread
    · exact ⟨n, literal, hnumeral, (Except.ok.inj hread).symm, hmeans,
        Numeral.isLiteralOf_bare hmeans hn (Numeral.spells_of_ofText? hnumeral).digits_ne_nil
          (Literal.isFinite_of_ofText hvalue)⟩
    · cases hread

/-- A power of ten without a sign stays with its digits. -/
theorem parse_bareNumeral_power :
    parse "limit >  1e3" = .ok (compare ⟨"limit", .greater, .number (.ofInt 1000)⟩) ∧
    parse "limit > ' 1e3'" = .ok (compare ⟨"limit", .greater, .number (.ofInt 1000)⟩) := by
  have hvalue : Literal.ofText " 1e3" = .number (.ofInt 1000) := by decide +kernel
  have hread : parse ("limit" ++ " " ++ ">" ++ " " ++ " 1e3") =
      .ok (compare ⟨"limit", .greater, .number (.ofInt 1000)⟩) := by decide +kernel
  obtain ⟨hquoted, -⟩ := @parse_bareNumeral "limit" ">" _ " 1e3" _ (by decide +kernel)
    (by decide +kernel) (by decide) hvalue hread
  exact ⟨hread, hquoted⟩

/-- A minus is lost before a power of ten, and a point before the first digit. The literals are
then other numbers, and a record tells them apart. -/
theorem parse_bareNumeral_lost :
    Literal.ofText "-1e3" = .number (.ofInt (-1000)) ∧
    parse "a > -1e3" = .ok (compare ⟨"a", .greater, .number (.ofInt 1000)⟩) ∧
    (compare ⟨"a", .greater, .number (.ofInt (-1000))⟩).eval (.ofList [("a", .number (.ofInt 0))]) =
      .ok true ∧
    (compare ⟨"a", .greater, .number (.ofInt 1000)⟩).eval (.ofList [("a", .number (.ofInt 0))]) =
      .ok false ∧
    Literal.ofText ".5" = .number (.signed false (.ofDecimal 5 (-1))) ∧
    parse "a > .5" = .ok (compare ⟨"a", .greater, .number (.ofInt 5)⟩) := by
  refine ⟨?_, ?_, ?_, ?_, ?_, ?_⟩ <;> decide +kernel

end Condition

end Eligibility
