import Eligibility.Proofs.Scan
import Mathlib.Algebra.Ring.Parity

/-!
# Places between lexemes

A place in a text is between lexemes if the text before it is lexemes and characters that are
passed over, each of them with all that follows in view (`IsBetween`). What stands on the two sides
of such a place is scanned as each side is on its own (`IsBetween.scan_append`) : a lexeme before
the place may also stand there if the text ends at the place, as no word and no number goes across
it (`IsBetween.not_isRun`).

Conversely a place is between lexemes if no lexeme that the text before it ends with may go on after
it, if no number begins there, which could be the fraction or have the sign that the text before it
ends with, and if the place is not inside of quotes (`EndsBefore.isBetween`). Quotes come in pairs
in lexemes, so for the last it is enough to count them.
-/

namespace Eligibility

variable {text rest rest' : List Char} {lexeme : Lexeme}

namespace Lexeme

/-! ## What a text goes on with -/

/-- Where no number begins, digits run into a word. -/
theorem startsWith_of_digits {digits tail : List Char} (h : digitsAtStart? (digits ++ tail) = none)
    (hd : IsRun isDecimalDigit digits) : startsWith isWordChar tail = true := by
  by_contra htail
  have hdigit := startsWith_digit_of_word (Bool.eq_false_iff.mpr htail)
  have hgoes := startsWith_of_digitsAtStart?_eq_none h (hd.startsWith_append tail)
  rw [hd.dropWhile_append hdigit] at hgoes
  exact htail hgoes

/-- If a text begins with no number, it begins with none before a text that begins with none. -/
theorem digitsAtStart?_append_eq_none (h : digitsAtStart? text = none)
    (h' : digitsAtStart? rest' = none) : digitsAtStart? (text ++ rest') = none := by
  by_cases hne : text = []
  · rwa [hne]
  cases hs : startsWith isDecimalDigit text with
  | false => exact digitsAtStart?_of_startsWith (by rwa [startsWith_append hne])
  | true =>
    obtain ⟨digits, more, rfl, hdigits, hmore⟩ := exists_run hs
    have hword := startsWith_of_digits h hdigits
    have hne := ne_nil_of_startsWith hword
    rw [List.append_assoc]
    exact digitsAtStart?_word hdigits (by rwa [startsWith_append hne])
      (by rwa [startsWith_append hne])

/-- A number that ends inside of a text ends there whatever comes after the text, except for the
digits of a fraction. -/
theorem NumberBefore.append {number : List Char} (h : NumberBefore rest number) (hne : rest ≠ [])
    (h' : digitsAtStart? rest' = none) : NumberBefore (rest ++ rest') number := by
  cases h with
  | fraction hd hf hword => exact .fraction hd hf (by rwa [startsWith_append hne])
  | whole hd hword hnone =>
    refine .whole hd (by rwa [startsWith_append hne]) fun fraction tail heq hfraction => ?_
    obtain ⟨c, more, rfl⟩ := List.exists_cons_of_ne_nil hne
    obtain ⟨rfl, hafter⟩ := List.cons.inj heq
    -- after the point the text ends inside of the digits or behind them
    rcases List.append_eq_append_iff.mp hafter with ⟨digits, rfl, rfl⟩ | ⟨behind, rfl, rfl⟩
    · by_cases hmore : more = []
      · subst hmore
        exact startsWith_of_digits h' hfraction
      · have hrun : IsRun isDecimalDigit more := ⟨hmore, fun c hc => hfraction.all c (by simp [hc])⟩
        cases hnone more [] (by simp) hrun
    · have hbehind := hnone fraction behind rfl hfraction
      rwa [startsWith_append (ne_nil_of_startsWith hbehind)]

/-- A lexeme that ends inside of a text ends there whatever comes after the text. -/
theorem CutBefore.append (h : CutBefore rest lexeme) (hne : rest ≠ [])
    (h' : digitsAtStart? rest' = none) : CutBefore (rest ++ rest') lexeme := by
  cases h with
  | number hn => exact .number (hn.append hne h')
  | negative hn => exact .negative (hn.append hne h')
  | quoted hb => exact .quoted hb
  | openParen => exact .openParen
  | closeParen => exact .closeParen
  | comparator hr hend => exact .comparator hr (by rwa [startsWith_append hne])
  | word hr hd hend => exact .word hr hd (by rwa [startsWith_append hne])

theorem NumberBefore.startsWith_rest {number : List Char} (h : NumberBefore rest number) :
    startsWith isWordChar rest = false := by
  cases h with
  | whole _ hword => exact hword
  | fraction _ _ hword => exact hword

/-! ## Quotes -/

/-- Quotes come in pairs in lexemes. -/
theorem CutBefore.even_quotes (h : CutBefore rest lexeme) :
    Even (lexeme.text.count '\x27') := by
  have none : '\x27' ∉ lexeme.text → Even (lexeme.text.count '\x27') := fun hnone => by
    simp [List.count_eq_zero_of_not_mem hnone]
  cases h with
  | number hn => exact none hn.quote_notMem
  | negative hn => exact none (by simpa using hn.quote_notMem)
  | @quoted body hbody => simp [List.count_eq_zero_of_not_mem hbody]
  | openParen | closeParen => exact none (by simp)
  | comparator hrun => exact none fun hq => ne_of_class (hrun.all _ hq) (by decide) rfl
  | word hrun => exact none fun hq => ne_of_class (hrun.all _ hq) (by decide) rfl

/-- The place between the two texts is not inside of quotes : the quotes before it are paired, or
no other one follows. -/
def IsOutsideQuotes (text rest : List Char) : Prop :=
  Even (text.count '\x27') ∨ '\x27' ∉ rest

theorem isOutsideQuotes_run {p : Char → Bool} {run : List Char} (hrun : IsRun p run)
    (hp : p '\x27' = false) (h : IsOutsideQuotes text rest) : IsOutsideQuotes text (run ++ rest) :=
  h.imp_right fun hrest hq => (List.mem_append.mp hq).elim
    (fun hq => ne_of_class (hrun.all _ hq) hp rfl) hrest

theorem isOutsideQuotes_append_iff (h : CutBefore rest' lexeme) :
    IsOutsideQuotes (lexeme.text ++ text) rest ↔ IsOutsideQuotes text rest := by
  rw [IsOutsideQuotes, List.count_append, Nat.even_add, iff_true_left h.even_quotes,
    IsOutsideQuotes]

/-- A quote that is passed over has no partner. -/
theorem isOutsideQuotes_cons_iff {c : Char} (h : IsPassedOver (text ++ rest) c) :
    IsOutsideQuotes (c :: text) rest ↔ IsOutsideQuotes text rest := by
  by_cases hc : c = '\x27'
  · have hnone : '\x27' ∉ rest := fun hq => h.quote hc (List.mem_append_right _ hq)
    exact iff_of_true (.inr hnone) (.inr hnone)
  · rw [IsOutsideQuotes, List.count_cons_of_ne hc, IsOutsideQuotes]

theorem IsPassedOver.append {c : Char} (h : IsPassedOver text c)
    (hnumber : digitsAtStart? rest = none) (hq : IsOutsideQuotes (c :: text) rest) :
    IsPassedOver (text ++ rest) c where
  __ := h
  quote hc := by
    -- the quote has no partner in the first text, so it is not paired there
    have hodd : ¬Even ((c :: text).count '\x27') := by
      simp [hc, List.count_eq_zero_of_not_mem (h.quote hc)]
    simp [h.quote hc, hq.resolve_left hodd]
  minus hc := digitsAtStart?_append_eq_none (h.minus hc) hnumber

/-! ## Places between lexemes -/

/-- Where `rest` follows the text, its end is a place between lexemes : the text is lexemes and
characters that are passed over. -/
inductive IsBetween (rest : List Char) : List Char → Prop
  | start : IsBetween rest []
  | gap {c : Char} {text : List Char} : IsPassedOver (text ++ rest) c → IsBetween rest text →
      IsBetween rest (c :: text)
  | lexeme {lexeme : Lexeme} {text : List Char} : CutBefore (text ++ rest) lexeme →
      IsBetween rest text → IsBetween rest (lexeme.text ++ text)

namespace IsBetween

theorem isOutsideQuotes (h : IsBetween rest text) : IsOutsideQuotes text rest := by
  induction h with
  | start => exact .inl (by simp)
  | gap hpassed _ ih => exact (isOutsideQuotes_cons_iff hpassed).mpr ih
  | lexeme hcut _ ih => exact (isOutsideQuotes_append_iff hcut).mpr ih

theorem of_cons {c : Char} (h : IsBetween rest (c :: text)) (hc : IsPassedOver (text ++ rest) c) :
    IsBetween rest text := by
  generalize heq : c :: text = whole at h
  cases h with
  | start => cases heq
  | gap _ h =>
    obtain ⟨rfl, rfl⟩ := List.cons.inj heq
    exact h
  | @lexeme lexeme text' hcut _ =>
    have hsome := hcut.atStart?_append
    rw [← List.append_assoc, ← heq, List.cons_append, isPassedOver_iff.mp hc] at hsome
    cases hsome

/-- No lexeme ends inside of a word. -/
theorem not_isRun (h : IsBetween rest text) (hrest : startsWith isWordChar rest = true) :
    ¬IsRun isWordChar text := by
  intro hrun
  have hnone {c : Char} (hc : c ∈ text) (hword : isWordChar c = false) : False := by
    rw [hrun.all c hc] at hword
    cases hword
  cases h with
  | start => exact hrun.ne_nil rfl
  | gap hpassed _ => exact hnone (by simp) hpassed.word
  | @lexeme lexeme tail hcut _ =>
    have hgoes : startsWith isWordChar (tail ++ rest) = true := by
      cases tail with
      | nil => exact hrest
      | cons c tail => exact hrun.all c (by simp)
    cases hcut with
    | number hn | negative hn => exact Bool.false_ne_true (hn.startsWith_rest.symm.trans hgoes)
    | word _ _ hend => exact Bool.false_ne_true (hend.symm.trans hgoes)
    | quoted | openParen | closeParen => exact hnone List.mem_cons_self (by decide)
    | comparator hcomparator =>
      obtain ⟨c, more, rfl⟩ := List.exists_cons_of_ne_nil hcomparator.ne_nil
      exact hnone (by simp) (isWordChar_of_isComparatorChar (hcomparator.all c (by simp)))

/-- Where a word goes on across the place, digits are not all that stands before it. -/
theorem ne_nil_of_digits {digits more : List Char} (h : IsBetween rest (digits ++ more))
    (hd : IsRun isDecimalDigit digits) (hgoes : startsWith isWordChar (more ++ rest) = true) :
    more ≠ [] := by
  rintro rfl
  rw [List.append_nil] at h
  exact h.not_isRun hgoes (hd.imp fun _ => isWordChar_of_isDecimalDigit)

/-- If no number begins across the place, none begins before it. -/
theorem digitsAtStart?_eq_none (h : IsBetween rest text)
    (hnone : digitsAtStart? (text ++ rest) = none) : digitsAtStart? text = none := by
  cases hs : startsWith isDecimalDigit text with
  | false => exact digitsAtStart?_of_startsWith hs
  | true =>
    obtain ⟨digits, more, rfl, hdigits, hmore⟩ := exists_run hs
    rw [List.append_assoc] at hnone
    have hgoes := startsWith_of_digits hnone hdigits
    rw [startsWith_append (h.ne_nil_of_digits hdigits hgoes)] at hgoes
    exact digitsAtStart?_word hdigits hmore hgoes

theorem passedOver {c : Char} (h : IsBetween rest text) (hc : IsPassedOver (text ++ rest) c) :
    IsPassedOver text c where
  __ := hc
  quote heq hq := hc.quote heq (List.mem_append_left _ hq)
  minus heq := h.digitsAtStart?_eq_none (hc.minus heq)

theorem numberBefore {number : List Char} (h : IsBetween rest text)
    (hn : NumberBefore (text ++ rest) number) : NumberBefore text number := by
  cases hn with
  | fraction hd hf hend => exact .fraction hd hf (startsWith_eq_false_of_append hend)
  | whole hd hend hnone =>
    refine .whole hd (startsWith_eq_false_of_append hend) fun fraction tail heq hfraction => ?_
    subst heq
    have hgoes := hnone fraction (tail ++ rest) (by simp) hfraction
    have hbehind := h.of_cons (isPassedOver_of_isGap (by decide))
    rwa [startsWith_append (hbehind.ne_nil_of_digits hfraction hgoes)] at hgoes

/-- A lexeme before the place may stand there if the text ends there. -/
theorem cutBefore (h : IsBetween rest text) (hcut : CutBefore (text ++ rest) lexeme) :
    CutBefore text lexeme := by
  cases hcut with
  | number hn => exact .number (h.numberBefore hn)
  | negative hn => exact .negative (h.numberBefore hn)
  | quoted hbody => exact .quoted hbody
  | openParen => exact .openParen
  | closeParen => exact .closeParen
  | comparator hrun hend => exact .comparator hrun (startsWith_eq_false_of_append hend)
  | word hrun hd hend => exact .word hrun hd (startsWith_eq_false_of_append hend)

/-- The texts on both sides of a place between lexemes are scanned on their own. -/
theorem scan_append (h : IsBetween rest text) : scan (text ++ rest) = scan text ++ scan rest := by
  induction h with
  | start => rw [scan, List.nil_append, List.nil_append]
  | gap hpassed hbetween ih =>
    rw [List.cons_append, scan_skip hpassed, ih,
      scan_skip (hbetween.passedOver hpassed)]
  | lexeme hcut hbetween ih =>
    rw [List.append_assoc, scan_of_cutBefore hcut, ih, scan_of_cutBefore (hbetween.cutBefore hcut),
      List.cons_append]

end IsBetween

/-! ## Where lexemes cannot go on -/

/-- No lexeme that begins in the text goes on in `rest`. -/
structure EndsBefore (rest text : List Char) : Prop where
  /-- A lexeme that the text ends with may end before `rest`. -/
  lexeme : ∀ (before : List Char) {lexeme : Lexeme}, text = before ++ lexeme.text →
    CutBefore [] lexeme → CutBefore rest lexeme
  number : digitsAtStart? rest = none
  quotes : IsOutsideQuotes text rest

theorem EndsBefore.isBetween (h : EndsBefore rest text) : IsBetween rest text := by
  fun_induction scan text with
  | case1 => exact .start
  | case2 c tail hnone ih =>
    have hpassed := (isPassedOver_iff.mpr hnone).append h.number h.quotes
    exact .gap hpassed (ih ⟨fun before _ heq => h.lexeme (c :: before)
      (by rw [heq, List.cons_append]), h.number, (isOutsideQuotes_cons_iff hpassed).mp h.quotes⟩)
  | case3 c tail lexeme hsome ih =>
    obtain ⟨more, htext, hcut⟩ := atStart?_eq_some_iff.mp hsome
    rw [htext] at h ⊢
    rw [htext, List.drop_left] at ih
    have hcut' : CutBefore (more ++ rest) lexeme := by
      by_cases hne : more = []
      · subst hne
        exact h.lexeme [] (by simp) hcut
      · exact hcut.append hne h.number
    exact .lexeme hcut' (ih ⟨fun before _ heq => h.lexeme (lexeme.text ++ before)
      (by rw [heq, List.append_assoc]), h.number, (isOutsideQuotes_append_iff hcut).mp h.quotes⟩)

/-- Before a text that goes on with no lexeme, only quotes matter. -/
theorem Separates.isBetween (h : Separates rest) (hq : IsOutsideQuotes text rest) :
    IsBetween rest text :=
  EndsBefore.isBetween ⟨fun _ _ _ hcut => hcut.of_separates h,
    digitsAtStart?_of_startsWith (startsWith_digit_of_word h.word), hq⟩

end Lexeme

end Eligibility
