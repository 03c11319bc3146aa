import Eligibility.Lexeme
import Eligibility.Proofs.Run

/-!
# What lexemes are

`Lexeme.CutBefore` says which lexemes there are and what may follow each of them, one rule for
each class, without reading a text from left to right. `atStart?_eq_some_iff` : a lexeme is cut
from the start of a text exactly if it may stand there before the rest of the text.

Hence a lexeme is the same on its own as in its place (`CutBefore.alone`), and the same in every
place where a character follows that goes on with no lexeme (`CutBefore.of_separates`).
-/

namespace Eligibility

variable {text rest digits fraction run : List Char}

/-! ## Characters -/

theorem isComparatorChar_of_isWordChar {c : Char} (h : isWordChar c = true) :
    isComparatorChar c = false := by
  refine Bool.eq_false_iff.mpr fun hc => ?_
  simp only [isComparatorChar, Bool.or_eq_true, beq_iff_eq] at hc
  rcases hc with ((rfl | rfl) | rfl) | rfl <;> exact absurd h (by decide)

theorem isWordChar_of_isComparatorChar {c : Char} (h : isComparatorChar c = true) :
    isWordChar c = false :=
  Bool.eq_false_iff.mpr fun hw => by simp [isComparatorChar_of_isWordChar hw] at h

theorem isDecimalDigit_of_not_isWordChar {c : Char} (h : isWordChar c = false) :
    isDecimalDigit c = false :=
  Bool.eq_false_iff.mpr fun hd => by simp [isWordChar_of_isDecimalDigit hd] at h

theorem isDecimalDigit_of_isComparatorChar {c : Char} (h : isComparatorChar c = true) :
    isDecimalDigit c = false :=
  isDecimalDigit_of_not_isWordChar (isWordChar_of_isComparatorChar h)

/-- The code point lies in one of the ranges. -/
theorem exists_of_inRanges {n : Nat} : ∀ {ranges : List (Nat × Nat)}, inRanges n ranges = true →
    ∃ range ∈ ranges, range.1 ≤ n ∧ n ≤ range.2
  | [], h => by cases h
  | (first, last) :: ranges, h => by
    rw [inRanges] at h
    split at h
    · cases h
    · rename_i hfirst
      rcases Bool.or_eq_true_iff.mp h with h | h
      · exact ⟨_, List.mem_cons_self, Nat.le_of_not_lt hfirst, of_decide_eq_true h⟩
      · obtain ⟨range, hmem, hrange⟩ := exists_of_inRanges h
        exact ⟨range, List.mem_cons_of_mem _ hmem, hrange⟩

/-- No word holds a blank. -/
theorem isWordChar_of_isBlank {c : Char} (h : isBlank c = true) : isWordChar c = false := by
  have hblanks : ∀ range ∈ blankRanges, ∀ place < range.2 - range.1 + 1,
      (inRanges (range.1 + place) decimalDigitRanges ||
        inRanges (range.1 + place) wordRanges) = false := by decide +kernel
  obtain ⟨range, hmem, hfirst, hlast⟩ := exists_of_inRanges h
  have hword := hblanks range hmem (c.toNat - range.1) (by omega)
  rwa [Nat.add_sub_cancel' hfirst] at hword

namespace Lexeme

theorem continuesWord_eq (text : List Char) : continuesWord text = startsWith isWordChar text := by
  cases text <;> rfl

theorem startsWith_digit_of_word (h : startsWith isWordChar rest = false) :
    startsWith isDecimalDigit rest = false :=
  startsWith_eq_false_of_imp (fun _ => isWordChar_of_isDecimalDigit) h

/-! ## Unsigned numbers -/

/-- The text is an unsigned number, and where `rest` follows it ends there. Without a fraction no
fraction that ends outside a word may follow. -/
inductive NumberBefore (rest : List Char) : List Char → Prop
  | whole {digits : List Char} : IsRun isDecimalDigit digits → startsWith isWordChar rest = false →
      (∀ fraction tail, rest = '.' :: (fraction ++ tail) → IsRun isDecimalDigit fraction →
        startsWith isWordChar tail = true) →
      NumberBefore rest digits
  | fraction {digits fraction : List Char} : IsRun isDecimalDigit digits →
      IsRun isDecimalDigit fraction → startsWith isWordChar rest = false →
      NumberBefore rest (digits ++ '.' :: fraction)

theorem startsWith_point : startsWith isDecimalDigit ('.' :: text) = false := by
  rw [startsWith_cons]
  decide

/-- A number without a fraction is cut after its digits. -/
theorem digitsAtStart?_whole (h : IsRun isDecimalDigit digits)
    (hrest : startsWith isWordChar rest = false)
    (hfraction : ∀ fraction tail, rest = '.' :: (fraction ++ tail) →
      IsRun isDecimalDigit fraction → startsWith isWordChar tail = true) :
    digitsAtStart? (digits ++ rest) = some digits := by
  have hd := startsWith_digit_of_word hrest
  have hne : digits.isEmpty = false := by simpa using h.ne_nil
  simp only [digitsAtStart?, h.takeWhile_append hd, h.dropWhile_append hd, hne]
  rw [if_neg (by simp)]
  split
  · rename_i tail
    cases hs : startsWith isDecimalDigit tail with
    | false => simp [takeWhile_of_startsWith hs]
    | true =>
      obtain ⟨fraction, tail', rfl, hf, ht⟩ := exists_run hs
      simp [hf.dropWhile_append ht, continuesWord_eq, hfraction fraction tail' rfl hf]
  · rw [continuesWord_eq, hrest]
    simp

/-- A number with a fraction is cut after the digits of the fraction. -/
theorem digitsAtStart?_fraction (h : IsRun isDecimalDigit digits)
    (hf : IsRun isDecimalDigit fraction) (hrest : startsWith isWordChar rest = false) :
    digitsAtStart? (digits ++ '.' :: (fraction ++ rest)) = some (digits ++ '.' :: fraction) := by
  have hd := startsWith_digit_of_word hrest
  have hne : digits.isEmpty = false := by simpa using h.ne_nil
  have hne' : fraction.isEmpty = false := by simpa using hf.ne_nil
  simp [digitsAtStart?, h.takeWhile_append startsWith_point, h.dropWhile_append startsWith_point,
    hf.takeWhile_append hd, hf.dropWhile_append hd, hne, hne', continuesWord_eq, hrest]

/-- Digits that run into a word are no number. -/
theorem digitsAtStart?_word (h : IsRun isDecimalDigit digits)
    (hd : startsWith isDecimalDigit rest = false) (hrest : startsWith isWordChar rest = true) :
    digitsAtStart? (digits ++ rest) = none := by
  have hne : digits.isEmpty = false := by simpa using h.ne_nil
  simp only [digitsAtStart?, h.takeWhile_append hd, h.dropWhile_append hd, hne]
  rw [if_neg (by simp)]
  split
  · exact absurd hrest (by rw [startsWith_cons]; decide)
  · rw [continuesWord_eq, hrest, if_pos rfl]

theorem digitsAtStart?_of_startsWith (h : startsWith isDecimalDigit text = false) :
    digitsAtStart? text = none := by
  simp [digitsAtStart?, takeWhile_of_startsWith h]

/-- An unsigned number is cut exactly where it may end. -/
theorem digitsAtStart?_eq_some_iff {number : List Char} :
    digitsAtStart? text = some number ↔
      ∃ rest, text = number ++ rest ∧ NumberBefore rest number := by
  constructor
  · intro h
    cases hs : startsWith isDecimalDigit text with
    | false => simp [digitsAtStart?_of_startsWith hs] at h
    | true =>
      obtain ⟨digits, rest, rfl, hd, hrest⟩ := exists_run hs
      by_cases hw : startsWith isWordChar rest = true
      · simp [digitsAtStart?_word hd hrest hw] at h
      · have hw' : startsWith isWordChar rest = false := by simpa using hw
        by_cases hf : ∃ fraction tail, rest = '.' :: (fraction ++ tail) ∧
            IsRun isDecimalDigit fraction ∧ startsWith isWordChar tail = false
        · obtain ⟨fraction, tail, rfl, hf, ht⟩ := hf
          obtain rfl := Option.some.inj ((digitsAtStart?_fraction hd hf ht).symm.trans h)
          exact ⟨tail, by simp, .fraction hd hf ht⟩
        · have hnone : ∀ fraction tail, rest = '.' :: (fraction ++ tail) →
              IsRun isDecimalDigit fraction → startsWith isWordChar tail = true := by
            intro fraction tail heq hfraction
            by_contra ht
            exact hf ⟨fraction, tail, heq, hfraction, by simpa using ht⟩
          obtain rfl := Option.some.inj ((digitsAtStart?_whole hd hw' hnone).symm.trans h)
          exact ⟨rest, rfl, .whole hd hw' hnone⟩
  · rintro ⟨rest, rfl, h⟩
    cases h with
    | whole hd hw hnone => exact digitsAtStart?_whole hd hw hnone
    | fraction hd hf hw => simpa using digitsAtStart?_fraction hd hf hw

/-! ## Lexemes -/

/-- The lexeme may stand before `rest` : it belongs to one of the classes and ends there. -/
inductive CutBefore (rest : List Char) : Lexeme → Prop
  | number {digits : List Char} : NumberBefore rest digits →
      CutBefore rest ⟨numberToken digits, digits⟩
  | negative {digits : List Char} : NumberBefore rest digits →
      CutBefore rest ⟨numberToken ('-' :: digits), '-' :: digits⟩
  | quoted {body : List Char} : '\x27' ∉ body →
      CutBefore rest ⟨.quoted (String.ofList body), '\x27' :: body ++ ['\x27']⟩
  | openParen : CutBefore rest ⟨.openParen, ['(']⟩
  | closeParen : CutBefore rest ⟨.closeParen, [')']⟩
  | comparator {run : List Char} : IsRun isComparatorChar run →
      startsWith isComparatorChar rest = false →
      CutBefore rest ⟨.comparator (String.ofList run), run⟩
  | word {run : List Char} : IsRun isWordChar run → ¬IsRun isDecimalDigit run →
      startsWith isWordChar rest = false → CutBefore rest ⟨wordToken run, run⟩

/-- A text that begins neither with a digit nor with a minus begins with no number. -/
theorem numberAtStart?_cons {c : Char} (hd : isDecimalDigit c = false) (hc : c ≠ '-') :
    numberAtStart? (c :: text) = none := by
  unfold numberAtStart?
  split
  · rename_i heq
    exact absurd (List.cons.inj heq).1 hc
  · exact digitsAtStart?_of_startsWith (by simpa using hd)

theorem numberAtStart?_of_ne {c : Char} (hc : c ≠ '-') :
    numberAtStart? (c :: text) = digitsAtStart? (c :: text) := by
  unfold numberAtStart?
  split
  · rename_i heq
    exact absurd (List.cons.inj heq).1 hc
  · rfl

/-- A run of word characters that are not all digits begins with no number. -/
theorem numberAtStart?_word (h : IsRun isWordChar run) (hd : ¬IsRun isDecimalDigit run)
    (rest : List Char) : numberAtStart? (run ++ rest) = none := by
  obtain ⟨c, tail, rfl⟩ := List.exists_cons_of_ne_nil h.ne_nil
  have hc : c ≠ '-' := ne_of_class (h.all c (by simp)) (by decide)
  rw [List.cons_append, numberAtStart?_of_ne hc, ← List.cons_append]
  cases hs : startsWith isDecimalDigit (c :: tail) with
  | false => exact digitsAtStart?_of_startsWith hs
  | true =>
    obtain ⟨digits, more, heq, hdigits, hmore⟩ := exists_run hs
    rw [heq] at h hd ⊢
    cases more with
    | nil => exact absurd (by simpa using hdigits) hd
    | cons a more =>
      rw [List.append_assoc]
      exact digitsAtStart?_word hdigits hmore (h.all a (by simp))

/-- Where digits are no number, a word goes on after them. -/
theorem startsWith_of_digitsAtStart?_eq_none (h : digitsAtStart? text = none)
    (hs : startsWith isDecimalDigit text = true) :
    startsWith isWordChar (text.dropWhile isDecimalDigit) = true := by
  have hne : (text.takeWhile isDecimalDigit).isEmpty = false := by
    simpa using (isRun_takeWhile hs).ne_nil
  simp only [digitsAtStart?, hne] at h
  rw [if_neg (by simp)] at h
  split at h
  · split at h <;> cases h
  · rw [continuesWord_eq] at h
    by_contra hw
    rw [if_neg hw] at h
    cases h

theorem NumberBefore.ne_minus {c : Char} (h : NumberBefore rest (c :: text)) : c ≠ '-' := by
  have digit : isDecimalDigit c = true := by
    generalize heq : c :: text = number at h
    cases h with
    | whole hd => exact hd.all c (heq ▸ by simp)
    | fraction hd =>
      obtain ⟨d, digits, rfl⟩ := List.exists_cons_of_ne_nil hd.ne_nil
      exact (List.cons.inj heq).1 ▸ hd.all d (by simp)
  exact ne_of_class digit (by decide)

theorem NumberBefore.ne_nil {number : List Char} (h : NumberBefore rest number) : number ≠ [] := by
  cases h with
  | whole hd => exact hd.ne_nil
  | fraction => simp

/-- A number is cut exactly where it may end, with its sign. -/
theorem numberAtStart?_eq_some_iff {number : List Char} :
    numberAtStart? text = some number ↔ ∃ rest, text = number ++ rest ∧
      (NumberBefore rest number ∨ ∃ digits, number = '-' :: digits ∧ NumberBefore rest digits) := by
  constructor
  · intro h
    unfold numberAtStart? at h
    split at h
    · obtain ⟨digits, hdigits, rfl⟩ := Option.map_eq_some_iff.mp h
      obtain ⟨rest, rfl, hn⟩ := digitsAtStart?_eq_some_iff.mp hdigits
      exact ⟨rest, rfl, .inr ⟨digits, rfl, hn⟩⟩
    · obtain ⟨rest, rfl, hn⟩ := digitsAtStart?_eq_some_iff.mp h
      exact ⟨rest, rfl, .inl hn⟩
  · rintro ⟨rest, rfl, hn | ⟨digits, rfl, hn⟩⟩
    · have digits := digitsAtStart?_eq_some_iff.mpr ⟨rest, rfl, hn⟩
      obtain ⟨c, tail, rfl⟩ := List.exists_cons_of_ne_nil hn.ne_nil
      rw [List.cons_append] at digits ⊢
      rwa [numberAtStart?_of_ne hn.ne_minus]
    · have digits := digitsAtStart?_eq_some_iff.mpr ⟨rest, rfl, hn⟩
      rw [List.cons_append, numberAtStart?, digits]
      rfl

/-- A text in quotes is cut up to the first quote after the opening one. -/
theorem quotedAtStart?_eq_some_iff {lexeme : Lexeme} :
    quotedAtStart? text = some lexeme ↔ ∃ body rest, text = body ++ '\x27' :: rest ∧
      '\x27' ∉ body ∧ lexeme = ⟨.quoted (String.ofList body), '\x27' :: body ++ ['\x27']⟩ := by
  constructor
  · intro h
    unfold quotedAtStart? at h
    split at h
    · rename_i hmem
      have hstop := startsWith_dropWhile (· != '\x27') text
      cases hdrop : text.dropWhile (· != '\x27') with
      | nil =>
        have := List.dropWhile_eq_nil_iff.mp hdrop '\x27' (by simpa using hmem)
        simp at this
      | cons c rest =>
        obtain rfl : c = '\x27' := by simpa [hdrop] using hstop
        refine ⟨text.takeWhile (· != '\x27'), rest, ?_, ?_, (Option.some.inj h).symm⟩
        · rw [← hdrop, List.takeWhile_append_dropWhile]
        · intro hbody
          have := List.mem_takeWhile_imp hbody
          simp at this
    · cases h
  · rintro ⟨body, rest, rfl, hbody, rfl⟩
    have hall : ∀ c ∈ body, (c != '\x27') = true := by
      intro c hc
      simpa using fun heq : c = '\x27' => hbody (heq ▸ hc)
    rw [quotedAtStart?, List.takeWhile_append_of_pos hall]
    simp

/-- A lexeme of a class that is no number is decided by its first character. -/
theorem atStart?_cons {c : Char} (h : numberAtStart? (c :: text) = none) :
    atStart? (c :: text) =
      if c = '\x27' then quotedAtStart? text
      else if c = '(' then some ⟨.openParen, [c]⟩
      else if c = ')' then some ⟨.closeParen, [c]⟩
      else if isComparatorChar c then
        some ⟨.comparator (String.ofList (c :: text.takeWhile isComparatorChar)),
          c :: text.takeWhile isComparatorChar⟩
      else if isWordChar c then
        some ⟨wordToken (c :: text.takeWhile isWordChar), c :: text.takeWhile isWordChar⟩
      else none := by
  unfold atStart?
  rw [h]

/-- A run of digits that no word character follows is a number. -/
theorem not_isRun_of_numberAtStart? {run rest : List Char} (h : numberAtStart? (run ++ rest) = none)
    (hrest : startsWith isWordChar rest = false) : ¬IsRun isDecimalDigit run := by
  intro hrun
  have htail := hrun.dropWhile_append (startsWith_digit_of_word hrest)
  obtain ⟨c, tail, rfl⟩ := List.exists_cons_of_ne_nil hrun.ne_nil
  have hc := hrun.all c (by simp)
  rw [List.cons_append] at h htail
  rw [numberAtStart?_of_ne (ne_of_class hc (by decide))] at h
  have hgoes := startsWith_of_digitsAtStart?_eq_none h hc
  rw [htail, hrest] at hgoes
  cases hgoes

/-- What is cut from the start of a text is a lexeme that may stand there. -/
theorem CutBefore.of_atStart? {lexeme : Lexeme} (h : atStart? text = some lexeme) :
    ∃ rest, text = lexeme.text ++ rest ∧ CutBefore rest lexeme := by
  cases hn : numberAtStart? text with
  | some number =>
    unfold atStart? at h
    rw [hn] at h
    obtain rfl := Option.some.inj h
    obtain ⟨rest, rfl, hnumber | ⟨digits, rfl, hdigits⟩⟩ := numberAtStart?_eq_some_iff.mp hn
    · exact ⟨rest, rfl, .number hnumber⟩
    · exact ⟨rest, rfl, .negative hdigits⟩
  | none =>
    cases text with
    | nil => cases h
    | cons c text =>
      rw [atStart?_cons hn] at h
      split_ifs at h with hq ho hc hcomparator hword
      · subst hq
        obtain ⟨body, rest, rfl, hbody, rfl⟩ := quotedAtStart?_eq_some_iff.mp h
        exact ⟨rest, by simp, .quoted hbody⟩
      · obtain rfl := Option.some.inj h
        exact ⟨text, rfl, ho ▸ .openParen⟩
      · obtain rfl := Option.some.inj h
        exact ⟨text, rfl, hc ▸ .closeParen⟩
      · obtain rfl := Option.some.inj h
        have hrun : IsRun isComparatorChar ((c :: text).takeWhile isComparatorChar) :=
          isRun_takeWhile hcomparator
        rw [List.takeWhile_cons_of_pos hcomparator] at hrun
        exact ⟨text.dropWhile isComparatorChar, by simp,
          .comparator hrun (startsWith_dropWhile _ _)⟩
      · obtain rfl := Option.some.inj h
        have hrun : IsRun isWordChar ((c :: text).takeWhile isWordChar) := isRun_takeWhile hword
        rw [List.takeWhile_cons_of_pos hword] at hrun
        have hrest := startsWith_dropWhile isWordChar text
        have htext : c :: text =
            c :: text.takeWhile isWordChar ++ text.dropWhile isWordChar := by simp
        rw [htext] at hn
        exact ⟨text.dropWhile isWordChar, htext,
          .word hrun (not_isRun_of_numberAtStart? hn hrest) hrest⟩

/-- A lexeme that may stand at the start of a text is cut from it. -/
theorem CutBefore.atStart?_append {lexeme : Lexeme} {rest : List Char} (h : CutBefore rest lexeme) :
    atStart? (lexeme.text ++ rest) = some lexeme := by
  cases h with
  | number hnumber =>
    have := numberAtStart?_eq_some_iff.mpr ⟨rest, rfl, .inl hnumber⟩
    simp only [atStart?, this]
  | negative hdigits =>
    have := numberAtStart?_eq_some_iff.mpr ⟨rest, rfl, .inr ⟨_, rfl, hdigits⟩⟩
    simp only [atStart?, this]
  | @quoted body hbody =>
    simp only [List.cons_append, List.append_assoc]
    rw [atStart?_cons (numberAtStart?_cons (by decide) (by decide)), if_pos rfl]
    exact quotedAtStart?_eq_some_iff.mpr ⟨body, rest, rfl, hbody, rfl⟩
  | openParen => exact atStart?_cons (numberAtStart?_cons (by decide) (by decide))
  | closeParen => exact atStart?_cons (numberAtStart?_cons (by decide) (by decide))
  | @comparator run hrun hrest =>
    have htake := hrun.takeWhile_append hrest
    obtain ⟨c, tail, rfl⟩ := List.exists_cons_of_ne_nil hrun.ne_nil
    have hc := hrun.all c (by simp)
    have hnumber : numberAtStart? (c :: (tail ++ rest)) = none :=
      numberAtStart?_cons (isDecimalDigit_of_isComparatorChar hc) (ne_of_class hc (by decide))
    simp only [List.cons_append] at htake ⊢
    rw [List.takeWhile_cons_of_pos hc] at htake
    rw [atStart?_cons hnumber, if_neg (ne_of_class hc (by decide)),
      if_neg (ne_of_class hc (by decide)), if_neg (ne_of_class hc (by decide)), if_pos hc, htake]
  | @word run hrun hd hrest =>
    have htake := hrun.takeWhile_append hrest
    have hnumber := numberAtStart?_word hrun hd rest
    obtain ⟨c, tail, rfl⟩ := List.exists_cons_of_ne_nil hrun.ne_nil
    have hc := hrun.all c (by simp)
    simp only [List.cons_append] at htake hnumber ⊢
    rw [List.takeWhile_cons_of_pos hc] at htake
    rw [atStart?_cons hnumber, if_neg (ne_of_class hc (by decide)),
      if_neg (ne_of_class hc (by decide)), if_neg (ne_of_class hc (by decide)),
      isComparatorChar_of_isWordChar hc, if_neg (by simp), if_pos hc, htake]

/-- A lexeme is cut from the start of a text exactly if it may stand there. -/
theorem atStart?_eq_some_iff {lexeme : Lexeme} :
    atStart? text = some lexeme ↔ ∃ rest, text = lexeme.text ++ rest ∧ CutBefore rest lexeme := by
  constructor
  · exact CutBefore.of_atStart?
  · rintro ⟨rest, rfl, h⟩
    exact h.atStart?_append

end Lexeme

end Eligibility
