import Eligibility.Proofs.Lexeme

/-!
# Lexemes in a text

A lexeme is the same on its own as in its place (`CutBefore.alone`), and the same in every place
where a character follows that goes on with no lexeme (`CutBefore.of_separates`). So the tokens
that a text is cut into are the tokens of their spellings too (`Token.scan_toText`) : the words
among them are the names of fields (`isFieldName_iff`), and the runs of comparator characters are
the symbols of comparators (`isComparatorSymbol_iff`). A character at which no lexeme begins is
passed over (`IsPassedOver`); blanks are, and so is a minus before no number.
-/

namespace Eligibility

variable {text rest : List Char} {lexeme : Lexeme}

namespace Lexeme

/-- Nothing that a text begins with in this way goes on with a lexeme. -/
structure Separates (rest : List Char) : Prop where
  word : startsWith isWordChar rest = false
  comparator : startsWith isComparatorChar rest = false
  point : startsWith (· == '.') rest = false

theorem separates_nil : Separates [] := ⟨rfl, rfl, rfl⟩

theorem separates_cons {c : Char} (hw : isWordChar c = false) (hc : isComparatorChar c = false)
    (hp : c ≠ '.') : Separates (c :: rest) :=
  ⟨hw, hc, by simpa using hp⟩

theorem separates_space : Separates (' ' :: rest) :=
  separates_cons (by decide) (by decide) (by decide)

theorem separates_closeParen : Separates (')' :: rest) :=
  separates_cons (by decide) (by decide) (by decide)

/-- A number may end before everything that goes on neither with a word nor with a fraction. -/
theorem NumberBefore.of_startsWith {number rest' : List Char} (h : NumberBefore rest number)
    (hword : startsWith isWordChar rest' = false) (hpoint : startsWith (· == '.') rest' = false) :
    NumberBefore rest' number := by
  cases h with
  | whole hd =>
    refine .whole hd hword fun fraction tail heq => ?_
    rw [heq] at hpoint
    simp at hpoint
  | fraction hd hf => exact .fraction hd hf hword

theorem CutBefore.of_separates {rest' : List Char} (h : CutBefore rest lexeme)
    (hs : Separates rest') : CutBefore rest' lexeme := by
  cases h with
  | number hn => exact .number (hn.of_startsWith hs.word hs.point)
  | negative hn => exact .negative (hn.of_startsWith hs.word hs.point)
  | quoted hb => exact .quoted hb
  | openParen => exact .openParen
  | closeParen => exact .closeParen
  | comparator hr => exact .comparator hr hs.comparator
  | word hr hd => exact .word hr hd hs.word

/-- A lexeme is cut from its own text. -/
theorem CutBefore.alone (h : CutBefore rest lexeme) : CutBefore [] lexeme :=
  h.of_separates separates_nil

/-! ## Scanning -/

theorem scan_of_cutBefore (h : CutBefore rest lexeme) :
    scan (lexeme.text ++ rest) = lexeme :: scan rest := by
  have hcut := atStart?_eq_some_iff.mpr ⟨rest, rfl, h⟩
  cases htext : lexeme.text ++ rest with
  | nil =>
    rw [htext] at hcut
    cases hcut
  | cons c tail =>
    rw [htext] at hcut
    rw [scan]
    split
    · rename_i hnone
      cases hnone.symm.trans hcut
    · rename_i found hsome
      obtain rfl := Option.some.inj (hsome.symm.trans hcut)
      rw [← htext, List.drop_left]

/-- No lexeme begins with the character where `rest` follows it. -/
structure IsPassedOver (rest : List Char) (c : Char) : Prop where
  word : isWordChar c = false
  comparator : isComparatorChar c = false
  openParen : c ≠ '('
  closeParen : c ≠ ')'
  quote : c = '\x27' → '\x27' ∉ rest
  minus : c = '-' → digitsAtStart? rest = none

theorem isPassedOver_iff {c : Char} : IsPassedOver rest c ↔ atStart? (c :: rest) = none := by
  constructor
  · rintro ⟨hword, hcomparator, hopen, hclose, hquote, hminus⟩
    have hnumber : numberAtStart? (c :: rest) = none := by
      by_cases hc : c = '-'
      · rw [hc, numberAtStart?, hminus hc, Option.map_none]
      · exact numberAtStart?_cons (isDecimalDigit_of_not_isWordChar hword) hc
    rw [atStart?_cons hnumber]
    by_cases hq : c = '\x27'
    · simp [hq, quotedAtStart?, hquote hq]
    · simp [hq, hopen, hclose, hcomparator, hword]
  · intro h
    have hnumber : numberAtStart? (c :: rest) = none := by
      cases hn : numberAtStart? (c :: rest) with
      | none => rfl
      | some number => simp [atStart?, hn] at h
    have hminus : c = '-' → digitsAtStart? rest = none := by
      rintro rfl
      simpa [numberAtStart?] using hnumber
    rw [atStart?_cons hnumber] at h
    by_cases hq : c = '\x27'
    · subst hq
      exact ⟨by decide, by decide, by decide, by decide, by simpa [quotedAtStart?] using h, hminus⟩
    · rw [if_neg hq] at h
      split_ifs at h with hopen hclose hcomparator hword
      exact ⟨by simpa using hword, by simpa using hcomparator, hopen, hclose,
        fun h => absurd h hq, hminus⟩

theorem scan_skip {c : Char} (h : IsPassedOver rest c) : scan (c :: rest) = scan rest := by
  have hnone := isPassedOver_iff.mp h
  rw [scan]
  split
  · rfl
  · rename_i hsome
    cases hnone.symm.trans hsome

/-- Whatever follows the character, no lexeme begins with it. -/
def isGap (c : Char) : Bool :=
  !(isWordChar c || isComparatorChar c || c == '\x27' || c == '(' || c == ')' || c == '-')

theorem isGap_of_isBlank {c : Char} (h : isBlank c = true) : isGap c = true := by
  have hcomparator : isComparatorChar c = false := by
    refine Bool.eq_false_iff.mpr fun hc => ?_
    simp only [isComparatorChar, Bool.or_eq_true, beq_iff_eq] at hc
    rcases hc with ((rfl | rfl) | rfl) | rfl <;> exact absurd h (by decide)
  have hne : ∀ {d : Char}, isBlank d = false → (c == d) = false := fun hd => by
    simpa using ne_of_class h hd
  simp [isGap, isWordChar_of_isBlank h, hcomparator, hne (d := '\x27') (by decide),
    hne (d := '(') (by decide), hne (d := ')') (by decide), hne (d := '-') (by decide)]

theorem separates_gap {c : Char} (h : isGap c = true) (hp : c ≠ '.') : Separates (c :: rest) := by
  simp only [isGap, Bool.not_eq_true', Bool.or_eq_false_iff] at h
  obtain ⟨⟨⟨⟨⟨hword, hcomparator⟩, -⟩, -⟩, -⟩, -⟩ := h
  exact separates_cons hword hcomparator hp

theorem separates_blank {c : Char} (h : isBlank c = true) : Separates (c :: rest) :=
  separates_gap (isGap_of_isBlank h) (ne_of_class h (by decide))

theorem isPassedOver_of_isGap {c : Char} (h : isGap c = true) : IsPassedOver rest c := by
  simp only [isGap, Bool.not_eq_true', Bool.or_eq_false_iff, beq_eq_false_iff_ne] at h
  obtain ⟨⟨⟨⟨⟨hword, hcomparator⟩, hquote⟩, hopen⟩, hclose⟩, hminus⟩ := h
  exact ⟨hword, hcomparator, hopen, hclose, fun h => absurd h hquote, fun h => absurd h hminus⟩

theorem isPassedOver_minus (h : digitsAtStart? rest = none) : IsPassedOver rest '-' :=
  ⟨by decide, by decide, by decide, by decide, fun h => absurd h (by decide), fun _ => h⟩

/-- Every lexeme of a text may stand somewhere. -/
theorem exists_cutBefore_of_mem_scan (h : lexeme ∈ scan text) : ∃ rest, CutBefore rest lexeme := by
  fun_induction scan text with
  | case1 => cases h
  | case2 c tail hnone ih => exact ih h
  | case3 c tail found hsome ih =>
    rcases List.mem_cons.mp h with rfl | h
    · obtain ⟨rest, -, hcut⟩ := atStart?_eq_some_iff.mp hsome
      exact ⟨rest, hcut⟩
    · exact ih h

/-! ## The tokens of lexemes -/

theorem toText_numberToken (h : ∀ value, numberToken text ≠ .number value) :
    (numberToken text).toText = String.ofList text := by
  unfold numberToken at h ⊢
  split
  · rename_i n hn
    rw [hn] at h
    exact absurd rfl (h n.value)
  · rfl

theorem toText_wordToken (text : List Char) : (wordToken text).toText = String.ofList text := by
  unfold wordToken
  split
  · rename_i c hc
    exact (Connective.eq_keyword_of_ofKeyword? hc).symm
  · rfl

/-- Every token but a number is cut from its own spelling. -/
theorem CutBefore.toText_token (h : CutBefore rest lexeme)
    (hn : ∀ value, lexeme.token ≠ .number value) :
    lexeme.token.toText = String.ofList lexeme.text := by
  cases h with
  | number | negative => exact toText_numberToken hn
  | quoted => simp [Token.toText, String.ofList_append, String.append_assoc]
  | openParen | closeParen => rfl
  | comparator => rfl
  | word => exact toText_wordToken _

theorem isDecimalDigit_or_point_of_mem {number : List Char} (h : NumberBefore rest number)
    {c : Char} (hc : c ∈ number) : isDecimalDigit c = true ∨ c = '.' := by
  cases h with
  | whole hd => exact .inl (hd.all c hc)
  | fraction hd hf =>
    rcases List.mem_append.mp hc with hc | hc
    · exact .inl (hd.all c hc)
    · rcases List.mem_cons.mp hc with rfl | hc
      · exact .inr rfl
      · exact .inl (hf.all c hc)

/-- There is no quote in a number. -/
theorem NumberBefore.quote_notMem {number : List Char} (h : NumberBefore rest number) :
    '\x27' ∉ number := by
  intro hc
  rcases isDecimalDigit_or_point_of_mem h hc with h | h <;> revert h <;> decide

theorem wordToken_ne_quoted (s : String) : wordToken text ≠ .quoted s := by
  unfold wordToken
  split <;> simp

theorem numberToken_ne_quoted (s : String) : numberToken text ≠ .quoted s := by
  unfold numberToken
  split <;> simp

/-- There is no quote in a word or in a quoted text. -/
theorem CutBefore.quote_notMem (h : CutBefore rest lexeme) {s : String}
    (ht : lexeme.token = .word s ∨ lexeme.token = .quoted s) : '\x27' ∉ s.toList := by
  rcases ht with ht | ht
  · have spelling := h.toText_token (by simp [ht])
    rw [ht] at spelling
    obtain rfl : s = String.ofList lexeme.text := spelling
    rw [String.toList_ofList]
    cases h with
    | number hn => exact hn.quote_notMem
    | negative hn => simpa using hn.quote_notMem
    | word hr => exact fun hq => ne_of_class (hr.all _ hq) (by decide) rfl
    | _ => cases ht
  · cases h with
    | quoted hb =>
      obtain rfl := Token.quoted.inj ht
      simpa using hb
    | number | negative => exact absurd ht (numberToken_ne_quoted s)
    | word => exact absurd ht (wordToken_ne_quoted s)
    | _ => cases ht

end Lexeme

namespace Token

open Lexeme (CutBefore)

/-- The tokens that a text is cut into, which may be none. -/
def cut (text : List Char) : List Token :=
  (Lexeme.scan text).map Lexeme.token

theorem cut_nil : cut [] = [] := by
  rw [cut, Lexeme.scan, List.map_nil]

theorem cut_of_cutBefore (h : CutBefore rest lexeme) :
    cut (lexeme.text ++ rest) = lexeme.token :: cut rest := by
  rw [cut, Lexeme.scan_of_cutBefore h, List.map_cons, cut]

theorem cut_gap {c : Char} (h : Lexeme.isGap c = true) : cut (c :: rest) = cut rest := by
  rw [cut, Lexeme.scan_skip (Lexeme.isPassedOver_of_isGap h), cut]

theorem cut_space : cut (' ' :: rest) = cut rest :=
  cut_gap (by decide)

/-- Blanks separate lexemes and are passed over. -/
theorem cut_blanks {blanks : List Char} (h : ∀ c ∈ blanks, isBlank c = true) :
    cut (blanks ++ rest) = cut rest := by
  induction blanks with
  | nil => rfl
  | cons c blanks ih =>
    rw [List.cons_append, cut_gap (Lexeme.isGap_of_isBlank (h c (by simp))),
      ih fun d hd => h d (by simp [hd])]

theorem cut_openParen : cut ('(' :: rest) = .openParen :: cut rest :=
  cut_of_cutBefore .openParen

theorem cut_closeParen : cut (')' :: rest) = .closeParen :: cut rest :=
  cut_of_cutBefore .closeParen

theorem cut_minus (h : Lexeme.digitsAtStart? rest = none) : cut ('-' :: rest) = cut rest := by
  rw [cut, Lexeme.scan_skip (Lexeme.isPassedOver_minus h), cut]

theorem scan_eq_ok_iff {text : String} {tokens : List Token} :
    scan text = .ok tokens ↔ tokens ≠ [] ∧ cut text.toList = tokens := by
  unfold scan cut
  split
  · rename_i h
    rw [h]
    constructor
    · exact fun h => nomatch h
    · rintro ⟨hne, rfl⟩
      exact absurd rfl hne
  · rename_i hne
    rw [Except.ok.injEq]
    constructor
    · rintro rfl
      exact ⟨hne, rfl⟩
    · exact fun h => h.2

theorem scan_eq_error_iff {text : String} {error : ParseError} :
    scan text = .error error ↔ error = .noTokens ∧ Lexeme.scan text.toList = [] := by
  unfold scan
  split
  · rename_i h
    rw [Except.error.injEq, eq_comm, and_iff_left (List.map_eq_nil_iff.mp h)]
  · rename_i hne
    simpa using fun _ => by simpa using hne

/-- The tokens of a text stand somewhere. -/
theorem exists_cutBefore_of_mem_scan {text : String} {tokens : List Token}
    (h : scan text = .ok tokens) {token : Token} (ht : token ∈ tokens) :
    ∃ rest lexeme, CutBefore rest lexeme ∧ lexeme.token = token := by
  obtain ⟨-, rfl⟩ := scan_eq_ok_iff.mp h
  obtain ⟨lexeme, hmem, rfl⟩ := List.mem_map.mp ht
  obtain ⟨rest, hcut⟩ := Lexeme.exists_cutBefore_of_mem_scan hmem
  exact ⟨rest, lexeme, hcut, rfl⟩

/-- A token that is no number is cut from its spelling, in every place before which no lexeme goes
on. -/
theorem cut_toText_append {rest' : List Char} (h : CutBefore rest lexeme)
    (hn : ∀ value, lexeme.token ≠ .number value) (hs : Lexeme.Separates rest') :
    cut (lexeme.token.toText.toList ++ rest') = lexeme.token :: cut rest' := by
  rw [h.toText_token hn, String.toList_ofList, cut_of_cutBefore (h.of_separates hs)]

/-- A token that is no number is the one token of its spelling. -/
theorem scan_toText (h : CutBefore rest lexeme) (hn : ∀ value, lexeme.token ≠ .number value) :
    scan lexeme.token.toText = .ok [lexeme.token] := by
  have hcut := cut_toText_append h hn Lexeme.separates_nil
  rw [List.append_nil, cut_nil] at hcut
  rw [scan_eq_ok_iff, hcut]
  simp

/-- The names of fields are the words that are cut out of texts. -/
theorem isFieldName_iff {name : String} : isFieldName name = true ↔
    ∃ rest lexeme, CutBefore rest lexeme ∧ lexeme.token = .word name := by
  constructor
  · intro h
    unfold isFieldName at h
    split at h
    · rename_i word hscan
      obtain rfl : word = name := by simpa using h
      exact exists_cutBefore_of_mem_scan hscan (by simp)
    · cases h
  · rintro ⟨rest, lexeme, hcut, ht⟩
    have hscan := scan_toText hcut (by simp [ht])
    rw [ht, toText] at hscan
    simp [isFieldName, hscan]

/-- The symbols of comparators are the runs of comparator characters that are cut out of texts. -/
theorem isComparatorSymbol_iff {symbol : String} : isComparatorSymbol symbol = true ↔
    ∃ rest lexeme, CutBefore rest lexeme ∧ lexeme.token = .comparator symbol := by
  constructor
  · intro h
    unfold isComparatorSymbol at h
    split at h
    · rename_i run hscan
      obtain rfl : run = symbol := by simpa using h
      exact exists_cutBefore_of_mem_scan hscan (by simp)
    · cases h
  · rintro ⟨rest, lexeme, hcut, ht⟩
    have hscan := scan_toText hcut (by simp [ht])
    rw [ht, toText] at hscan
    simp [isComparatorSymbol, hscan]

/-- The name of a field is cut out of every place before which no word goes on. -/
theorem cut_field {name : String} (h : isFieldName name = true) (hs : Lexeme.Separates rest) :
    cut (name.toList ++ rest) = .word name :: cut rest := by
  obtain ⟨_, lexeme, hcut, ht⟩ := isFieldName_iff.mp h
  simpa [ht, toText] using cut_toText_append hcut (by simp [ht]) hs

/-- The symbol of a comparator is cut out of every place before which no comparator goes on. -/
theorem cut_comparator {symbol : String} (h : isComparatorSymbol symbol = true)
    (hs : Lexeme.Separates rest) :
    cut (symbol.toList ++ rest) = .comparator symbol :: cut rest := by
  obtain ⟨_, lexeme, hcut, ht⟩ := isComparatorSymbol_iff.mp h
  simpa [ht, toText] using cut_toText_append hcut (by simp [ht]) hs

/-- Neither keyword is all digits. -/
theorem not_isRun_keyword (c : Connective) : ¬IsRun isDecimalDigit c.keyword.toList := by
  intro h
  cases c with
  | and => exact absurd (h.all 'A' (by decide)) (by decide)
  | or => exact absurd (h.all 'O' (by decide)) (by decide)

/-- The keyword of a connective is cut out of every place before which no word goes on. -/
theorem cut_connective (c : Connective) (hs : Lexeme.Separates rest) :
    cut (c.keyword.toList ++ rest) = .connective c :: cut rest := by
  have hrun : IsRun isWordChar c.keyword.toList := by
    cases c <;> exact ⟨by decide, List.all_eq_true.mp (by decide)⟩
  have htoken : Lexeme.wordToken c.keyword.toList = .connective c := by
    rw [Lexeme.wordToken, String.ofList_toList, Connective.ofKeyword?_keyword]
  rw [cut_of_cutBefore (.word hrun (not_isRun_keyword c) hs.word), htoken]

end Token

end Eligibility
