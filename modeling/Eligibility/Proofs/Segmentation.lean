import Eligibility.Proofs.Boundary

/-!
# Gaps and lexemes

A text is a row of lexemes with gaps before, between and after them (`Segments`). A character is
in a gap only if no lexeme begins with it, whatever comes after it, with two exceptions : a quote
that no other quote follows, and a minus before no number (`IsPassedOver`). There is exactly one
such row for each text, and that is how the text is scanned (`scan_eq_iff_segments`).

Hence a run of comparator characters that stands outside of quotes and goes on neither to the left
nor to the right is one lexeme (`scan_of_isLongest_comparator`), and so is such a run of word
characters, unless it is all digits and may belong to a number (`scan_of_isLongest_word`). A text
has no lexemes exactly if there is nothing to begin one with (`scan_eq_nil_iff`).
`Token.scan_segments` says all this of tokens.
-/

namespace Eligibility

variable {text rest gap before run after : List Char} {lexeme : Lexeme} {lexemes : List Lexeme}

namespace Lexeme

/-- Every character of the gap is passed over where the rest of the gap and `rest` follow it. -/
def IsGapBefore (rest gap : List Char) : Prop :=
  ∀ before c after, gap = before ++ c :: after → IsPassedOver (after ++ rest) c

theorem isGapBefore_nil : IsGapBefore rest [] := by
  intro before c after h
  simp at h

theorem isGapBefore_cons {c : Char} :
    IsGapBefore rest (c :: gap) ↔ IsPassedOver (gap ++ rest) c ∧ IsGapBefore rest gap := by
  constructor
  · intro h
    exact ⟨h [] c gap rfl, fun before d after heq => h (c :: before) d after (by rw [heq]; rfl)⟩
  · rintro ⟨hc, hgap⟩ before d after h
    cases before with
    | nil =>
      obtain ⟨rfl, rfl⟩ := List.cons.inj h
      exact hc
    | cons b before =>
      obtain ⟨rfl, rfl⟩ := List.cons.inj h
      exact hgap before d after rfl

/-- The text is the lexemes in their order, with gaps before, between and after them, and every
lexeme may stand before what follows it. -/
inductive Segments : List Char → List Lexeme → Prop
  | last {gap : List Char} : IsGapBefore [] gap → Segments gap []
  | next {gap rest : List Char} {lexeme : Lexeme} {lexemes : List Lexeme} :
    IsGapBefore (lexeme.text ++ rest) gap → CutBefore rest lexeme → Segments rest lexemes →
      Segments (gap ++ (lexeme.text ++ rest)) (lexeme :: lexemes)

/-- A character that is passed over belongs to the first gap. -/
theorem Segments.cons {c : Char} (h : Segments rest lexemes) (hc : IsPassedOver rest c) :
    Segments (c :: rest) lexemes := by
  cases h with
  | last hgap => exact .last (isGapBefore_cons.mpr ⟨by rwa [List.append_nil], hgap⟩)
  | next hgap hcut hrest => exact .next (isGapBefore_cons.mpr ⟨hc, hgap⟩) hcut hrest

theorem scan_gap_append (h : IsGapBefore rest gap) : scan (gap ++ rest) = scan rest := by
  induction gap with
  | nil => rfl
  | cons c gap ih =>
    obtain ⟨hc, hgap⟩ := isGapBefore_cons.mp h
    rw [List.cons_append, scan_skip hc, ih hgap]

/-- There is one way to cut a text into gaps and lexemes. -/
theorem scan_eq_iff_segments : scan text = lexemes ↔ Segments text lexemes := by
  constructor
  · rintro rfl
    fun_induction scan text with
    | case1 => exact .last isGapBefore_nil
    | case2 c rest hnone ih => exact ih.cons (isPassedOver_iff.mpr hnone)
    | case3 c rest lexeme hsome ih =>
      obtain ⟨tail, htext, hcut⟩ := atStart?_eq_some_iff.mp hsome
      rw [htext, List.drop_left] at ih
      rw [htext, List.drop_left]
      exact .next isGapBefore_nil hcut ih
  · intro h
    induction h with
    | last hgap =>
      have hscan := scan_gap_append hgap
      rwa [List.append_nil, scan] at hscan
    | next hgap hcut _ ih => rw [scan_gap_append hgap, scan_of_cutBefore hcut, ih]

/-! ## Texts without lexemes -/

/-- A text has no lexeme exactly if it has no character that begins one and not two quotes. -/
theorem scan_eq_nil_iff : scan text = [] ↔
    (∀ c ∈ text, isWordChar c = false ∧ isComparatorChar c = false ∧ c ≠ '(' ∧ c ≠ ')') ∧
      text.count '\x27' < 2 := by
  rw [scan_eq_iff_segments]
  constructor
  · intro h
    cases h with
    | last hgap =>
    refine ⟨fun c hc => ?_, ?_⟩
    · obtain ⟨before, after, rfl⟩ := List.append_of_mem hc
      have hpassed := hgap before c after rfl
      exact ⟨hpassed.word, hpassed.comparator, hpassed.openParen, hpassed.closeParen⟩
    · by_cases hq : '\x27' ∈ text
      · obtain ⟨before, after, rfl, hbefore⟩ := List.eq_append_cons_of_mem hq
        have hafter := (hgap before '\x27' after rfl).quote rfl
        rw [List.append_nil] at hafter
        simp [List.count_eq_zero_of_not_mem hbefore, List.count_eq_zero_of_not_mem hafter]
      · simp [List.count_eq_zero_of_not_mem hq]
  · rintro ⟨hplain, hquotes⟩
    refine .last fun before c after h => ?_
    subst h
    obtain ⟨hword, hcomparator, hopen, hclose⟩ := hplain c (by simp)
    refine ⟨hword, hcomparator, hopen, hclose, ?_, fun _ => ?_⟩
    · rintro rfl hq
      have := List.count_pos_iff.mpr hq
      simp only [List.count_append, List.count_cons_self, List.append_nil] at hquotes this
      omega
    · refine digitsAtStart?_of_startsWith (startsWith_digit_of_word ?_)
      rw [List.append_nil]
      cases after with
      | nil => rfl
      | cons d after => exact (hplain d (by simp)).1

/-! ## Longest runs -/

/-- The run of characters of a class goes on neither to the left nor to the right. -/
structure IsLongest (p : Char → Bool) (before run after : List Char) : Prop where
  run : IsRun p run
  before : startsWith p before.reverse = false
  after : startsWith p after = false

/-- A text that ends with a run of characters of the class is not what stands before a longest
run. -/
theorem IsLongest.ne_append {run' : List Char} (h : IsLongest p before run after)
    (hrun : IsRun p run') (front : List Char) : before ≠ front ++ run' := by
  rintro rfl
  have hbefore := h.before
  rw [List.reverse_append, hrun.reverse.startsWith_append] at hbefore
  cases hbefore

/-- A number ends with a digit, and so is not what stands before a longest run of word
characters. -/
theorem IsLongest.ne_append_number {number : List Char} (h : IsLongest isWordChar before run after)
    (hn : NumberBefore rest number) (front : List Char) : before ≠ front ++ number := by
  cases hn with
  | whole hd => exact h.ne_append (hd.imp fun _ => isWordChar_of_isDecimalDigit) front
  | @fraction digits fraction hd hf =>
    have := h.ne_append (hf.imp fun _ => isWordChar_of_isDecimalDigit) (front ++ (digits ++ ['.']))
    simpa using this

theorem IsLongest.isBetween_comparator (h : IsLongest isComparatorChar before run after)
    (hq : IsOutsideQuotes before after) : IsBetween (run ++ after) before := by
  have hword : startsWith isWordChar (run ++ after) = false :=
    h.run.startsWith_append_eq_false (fun _ => isWordChar_of_isComparatorChar) after
  have hpoint : startsWith (· == '.') (run ++ after) = false :=
    h.run.startsWith_append_eq_false (fun c hc => by simpa using ne_of_class hc (by decide)) after
  refine EndsBefore.isBetween ⟨fun front lexeme htext hcut => ?_,
    digitsAtStart?_of_startsWith (startsWith_digit_of_word hword),
    isOutsideQuotes_run h.run (by decide) hq⟩
  cases hcut with
  | number hn => exact .number (hn.of_startsWith hword hpoint)
  | negative hn => exact .negative (hn.of_startsWith hword hpoint)
  | quoted hbody => exact .quoted hbody
  | openParen => exact .openParen
  | closeParen => exact .closeParen
  | comparator hrun => exact absurd htext (h.ne_append hrun front)
  | word hrun hd => exact .word hrun hd hword

theorem IsLongest.isBetween_word (h : IsLongest isWordChar before run after)
    (hd : ¬IsRun isDecimalDigit run) (hq : IsOutsideQuotes before after) :
    IsBetween (run ++ after) before := by
  have hnumber : digitsAtStart? (run ++ after) = none := by
    have hnone := numberAtStart?_word h.run hd after
    obtain ⟨c, tail, rfl⟩ := List.exists_cons_of_ne_nil h.run.ne_nil
    rwa [List.cons_append, numberAtStart?_of_ne (ne_of_class (h.run.all c (by simp)) (by decide))]
      at hnone
  refine EndsBefore.isBetween ⟨fun front lexeme htext hcut => ?_, hnumber,
    isOutsideQuotes_run h.run (by decide) hq⟩
  cases hcut with
  | number hn => exact absurd htext (h.ne_append_number hn front)
  | negative hn => exact absurd (by simpa using htext) (h.ne_append_number hn (front ++ ['-']))
  | quoted hbody => exact .quoted hbody
  | openParen => exact .openParen
  | closeParen => exact .closeParen
  | comparator hrun =>
    exact .comparator hrun
      (h.run.startsWith_append_eq_false (fun _ => isComparatorChar_of_isWordChar) after)
  | word hrun => exact absurd htext (h.ne_append hrun front)

/-- A longest run of comparator characters outside of quotes is one comparator. -/
theorem scan_of_isLongest_comparator (h : IsLongest isComparatorChar before run after)
    (hq : IsOutsideQuotes before after) : scan (before ++ (run ++ after)) =
      scan before ++ ⟨.comparator (String.ofList run), run⟩ :: scan after := by
  rw [(h.isBetween_comparator hq).scan_append]
  exact congrArg (scan before ++ ·) (scan_of_cutBefore (.comparator h.run h.after))

/-- A longest run of word characters outside of quotes is one word, unless it is all digits. -/
theorem scan_of_isLongest_word (h : IsLongest isWordChar before run after)
    (hd : ¬IsRun isDecimalDigit run) (hq : IsOutsideQuotes before after) :
    scan (before ++ (run ++ after)) = scan before ++ ⟨wordToken run, run⟩ :: scan after := by
  rw [(h.isBetween_word hd hq).scan_append]
  exact congrArg (scan before ++ ·) (scan_of_cutBefore (.word h.run hd h.after))

end Lexeme

namespace Token

open Lexeme

/-- There is one way to cut a text into lexemes and gaps, and the tokens of the text are those of
these lexemes. Longest runs of comparator characters are single tokens, and so are longest runs of
word characters that are not all digits. A text has no tokens exactly if no character begins one
and two quotes are not in it. -/
theorem scan_segments (text : String) :
    (∀ tokens, scan text = .ok tokens → ∃ lexemes, lexemes.map Lexeme.token = tokens ∧
      ∀ lexemes', Segments text.toList lexemes' ↔ lexemes' = lexemes) ∧
    (∀ before run after, text.toList = before ++ (run ++ after) → IsOutsideQuotes before after →
      (IsLongest isComparatorChar before run after →
        cut text.toList = cut before ++ .comparator (String.ofList run) :: cut after) ∧
      (IsLongest isWordChar before run after → ¬IsRun isDecimalDigit run →
        cut text.toList = cut before ++ wordToken run :: cut after)) ∧
    ∀ error, scan text = .error error ↔ error = .noTokens ∧
      (∀ c ∈ text.toList,
        isWordChar c = false ∧ isComparatorChar c = false ∧ c ≠ '(' ∧ c ≠ ')') ∧
      text.toList.count '\x27' < 2 := by
  refine ⟨fun tokens h => ?_, fun before run after htext hq => ⟨fun hrun => ?_, fun hrun hd => ?_⟩,
    fun error => ?_⟩
  · obtain ⟨-, rfl⟩ := scan_eq_ok_iff.mp h
    exact ⟨_, rfl, fun lexemes => by rw [← scan_eq_iff_segments, eq_comm]⟩
  · rw [cut, htext, scan_of_isLongest_comparator hrun hq, List.map_append, List.map_cons, cut, cut]
  · rw [cut, htext, scan_of_isLongest_word hrun hd hq, List.map_append, List.map_cons, cut, cut]
  · rw [← scan_eq_nil_iff, scan_eq_error_iff]

/-- The comparator in quotes is no token, and the digits after the minus belong to a word. -/
theorem scan_segments_word :
    (∃ lexemes,
      lexemes.map Lexeme.token = [.quoted "a >", .comparator ">=", .word "30abc"] ∧
      ∀ lexemes', Segments "'a >' >=-30abc".toList lexemes' ↔ lexemes' = lexemes) ∧
    cut "'a >' >=-30abc".toList = cut "'a >' >=-".toList ++ .word "30abc" :: cut [] ∧
    cut "'a >' >=-30abc".toList =
      cut "'a >' ".toList ++ .comparator ">=" :: cut "-30abc".toList ∧
    scan ".'-" = .error .noTokens := by
  obtain ⟨htokens, hruns, -⟩ := scan_segments "'a >' >=-30abc"
  have hrun : IsRun isWordChar "30abc".toList := ⟨by decide, List.all_eq_true.mp (by decide)⟩
  have hdigits : ¬IsRun isDecimalDigit "30abc".toList := fun h =>
    absurd (h.all 'a' (by decide)) (by decide)
  have hword : wordToken "30abc".toList = .word "30abc" := by decide +kernel
  refine ⟨htokens _ (by decide +kernel), ?_, ?_, ?_⟩
  · rw [← hword]
    exact (hruns "'a >' >=-".toList _ [] (by decide) (.inr (by simp))).2
      ⟨hrun, by decide, rfl⟩ hdigits
  · exact (hruns "'a >' ".toList ">=".toList _ (by decide) (.inl (by decide))).1
      ⟨⟨by decide, List.all_eq_true.mp (by decide)⟩, by decide, by decide⟩
  · refine ((scan_segments ".'-").2.2 .noTokens).mpr ⟨rfl, fun c hc => ?_, by decide⟩
    have hc' : c = '.' ∨ c = '\x27' ∨ c = '-' := by simpa using hc
    rcases hc' with rfl | rfl | rfl <;> decide

end Token

end Eligibility
