import Eligibility.Proofs.BareNumeral
import Eligibility.Proofs.Flattening
import Eligibility.Proofs.TokenRow

/-!
# Words

A word is a run of word characters that is no keyword (`Token.IsPlainWord`), with one exception.
Numbers are cut out of texts in the digits of every script, but only the digits `0` to `9` denote
anything. A number with other digits among its own becomes a word as it stands, and if it has a
minus or a fraction, that word holds a character that is none of a word's
(`Lexeme.IsForeignNumeral`). Main statement :

* `Token.word_plain_or_foreign` : every word of a text, and every field of a condition that is read
  from a text or from nodes, is a plain word or a foreign numeral, and each of the latter does
  occur. One of them is the word in `Token.scan_foreign_negative`.
-/

namespace Eligibility

variable {rest text : List Char} {lexeme : Lexeme}

/-- One or more word characters, but no keyword. -/
structure Token.IsPlainWord (name : String) : Prop where
  run : IsRun isWordChar name.toList
  ne_keyword : ∀ c : Connective, name ≠ c.keyword

/-! ## Numbers in the digits of other scripts -/

namespace Lexeme

/-- Some digit is none of `0` to `9`. -/
def HasForeignDigit (text : List Char) : Prop :=
  ∃ c ∈ text, isDecimalDigit c = true ∧ c.isDigit = false

/-- A number as texts have it, with a minus or a fraction, and with a digit of another script. -/
inductive IsForeignNumeral : List Char → Prop
  | negative {number : List Char} : NumberBefore [] number → HasForeignDigit number →
      IsForeignNumeral ('-' :: number)
  | fraction {whole fraction : List Char} : IsRun isDecimalDigit whole →
      IsRun isDecimalDigit fraction → HasForeignDigit (whole ++ '.' :: fraction) →
      IsForeignNumeral (whole ++ '.' :: fraction)

theorem NumberBefore.alone {number : List Char} (h : NumberBefore rest number) :
    NumberBefore [] number :=
  h.of_startsWith rfl rfl

/-- The digits of a numeral are `0` to `9`. -/
theorem isDigit_of_spells {n : Numeral} (h : n.Spells text) {c : Char} (hc : c ∈ text)
    (hdigit : isDecimalDigit c = true) : c.isDigit = true := by
  obtain ⟨hsign, hwhole, hpoint, -, hpower⟩ := h
  have hmark (mark : Char) (h : isDecimalDigit mark = false) : c ≠ mark := ne_of_class hdigit h
  have signed : ∀ {sign : List Char} {negative : Bool}, Numeral.SpellsSign sign negative →
      c ∉ sign := by
    rintro sign negative (- | - | -) <;> simp [hmark '+' (by decide),
      hmark '-' (by decide)]
  simp only [List.mem_append] at hc
  rcases hc with hc | hc | hc | hc
  · exact absurd hc (signed hsign)
  · exact hwhole c hc
  · cases hpoint with
    | absent => cases hc
    | point hfraction =>
      exact hfraction c ((List.mem_cons.mp hc).resolve_left (hmark '.' (by decide)))
  · cases hpower with
    | absent => cases hc
    | power he hsign hdigits =>
      have hletter : c ≠ _ := hmark _ (class_of_letter he).2
      rcases List.mem_append.mp ((List.mem_cons.mp hc).resolve_left hletter) with hc | hc
      · exact absurd hc (signed hsign)
      · exact hdigits.all c hc

/-- A number with a foreign digit is a word as it stands. -/
theorem numberToken_of_foreign (h : HasForeignDigit text) :
    numberToken text = .word (String.ofList text) := by
  obtain ⟨c, hc, hdigit, hforeign⟩ := h
  unfold numberToken
  split
  · rename_i n hn
    rw [isDigit_of_spells (Numeral.spells_of_ofText? hn) hc hdigit] at hforeign
    cases hforeign
  · rfl

/-- A number is a word only because of a foreign digit. -/
theorem hasForeignDigit_of_numberToken (negative : Bool) {number : List Char} {name : String}
    (h : NumberBefore rest number)
    (ht : numberToken ((if negative then ['-'] else []) ++ number) = .word name) :
    HasForeignDigit number := by
  by_contra hnone
  have hdigit : ∀ c ∈ number, isDecimalDigit c = true → c.isDigit = true := by
    intro c hc hdecimal
    by_contra hforeign
    exact hnone ⟨c, hc, hdecimal, by simpa using hforeign⟩
  cases h with
  | whole hd =>
    have hrun : IsRun Char.isDigit number := ⟨hd.ne_nil, fun c hc => hdigit c hc (hd.all c hc)⟩
    have hnumber := numberToken_decimal negative hrun .absent
    rw [List.append_nil, ht] at hnumber
    cases hnumber
  | @fraction whole fraction hd hf =>
    have hwhole : IsRun Char.isDigit whole :=
      ⟨hd.ne_nil, fun c hc => hdigit c (by simp [hc]) (hd.all c hc)⟩
    have hnumber := numberToken_decimal negative hwhole
      (.point fun c hc => hdigit c (by simp [hc]) (hf.all c hc))
    rw [ht] at hnumber
    cases hnumber

/-- Whatever makes a numeral foreign is no character of a word. -/
theorem IsForeignNumeral.not_isRun (h : IsForeignNumeral text) : ¬IsRun isWordChar text := by
  intro hrun
  cases h with
  | negative => exact absurd (hrun.all '-' (by simp)) (by decide)
  | fraction => exact absurd (hrun.all '.' (by simp)) (by decide)

/-- A foreign numeral is cut out as one word. -/
theorem IsForeignNumeral.cutBefore (h : IsForeignNumeral text) :
    CutBefore [] ⟨.word (String.ofList text), text⟩ := by
  cases h with
  | @negative number hnumber hforeign =>
    have hdigit : HasForeignDigit ('-' :: number) :=
      hforeign.imp fun c hc => ⟨List.mem_cons_of_mem _ hc.1, hc.2⟩
    rw [← numberToken_of_foreign hdigit]
    exact .negative hnumber
  | fraction hwhole hfraction hforeign =>
    rw [← numberToken_of_foreign hforeign]
    exact .number (.fraction hwhole hfraction rfl)

/-! ## Lexemes of words -/

/-- On its own a text is one lexeme at most. -/
theorem CutBefore.unique {lexeme' : Lexeme} (h : CutBefore [] lexeme) (h' : CutBefore [] lexeme')
    (htext : lexeme.text = lexeme'.text) : lexeme = lexeme' := by
  have hcut := h.atStart?_append
  rw [htext, h'.atStart?_append] at hcut
  exact (Option.some.inj hcut).symm

theorem CutBefore.text_eq {name : String} (h : CutBefore rest lexeme)
    (ht : lexeme.token = .word name) : lexeme.text = name.toList := by
  have hspelling := h.toText_token (by simp [ht])
  rw [ht] at hspelling
  replace hspelling : name = String.ofList lexeme.text := hspelling
  rw [hspelling, String.toList_ofList]

/-- The lexeme of a word is a plain word or a foreign numeral. -/
theorem CutBefore.plain_or_foreign {name : String} (h : CutBefore rest lexeme)
    (ht : lexeme.token = .word name) :
    Token.IsPlainWord name ∨ IsForeignNumeral name.toList := by
  have htext := h.text_eq ht
  cases h with
  | @number number hn =>
    -- a whole number is digits only, which are characters of words ; a fraction has a point
    have hforeign := hasForeignDigit_of_numberToken false hn ht
    replace htext : number = name.toList := htext
    rw [← htext]
    cases hn with
    | whole hd =>
      refine .inl ⟨htext ▸ hd.imp fun _ => isWordChar_of_isDecimalDigit, fun c hc => ?_⟩
      rw [htext, hc] at hd
      exact Token.not_isRun_keyword c hd
    | fraction hd hf => exact .inr (.fraction hd hf hforeign)
  | @negative number hn =>
    have hforeign := hasForeignDigit_of_numberToken true hn ht
    have hnumeral : IsForeignNumeral ('-' :: number) := .negative hn.alone hforeign
    exact .inr (htext ▸ hnumeral)
  | @word run hrun =>
    obtain rfl : run = name.toList := htext
    refine .inl ⟨hrun, fun c hc => ?_⟩
    rw [wordToken, String.ofList_toList, hc, Connective.ofKeyword?_keyword] at ht
    cases ht
  | _ => cases ht

end Lexeme

namespace Token

open Lexeme

/-- What names a field is a plain word, unless it is a foreign numeral. -/
theorem isPlainWord_iff {name : String} (h : isFieldName name = true) :
    IsPlainWord name ↔ ¬IsForeignNumeral name.toList := by
  obtain ⟨rest, lexeme, hcut, ht⟩ := isFieldName_iff.mp h
  constructor
  · intro hplain hforeign
    exact hforeign.not_isRun hplain.run
  · exact (hcut.plain_or_foreign ht).resolve_right

/-- Every foreign numeral names a field. -/
theorem isFieldName_of_foreign {name : String} (h : IsForeignNumeral name.toList) :
    isFieldName name = true :=
  isFieldName_iff.mpr ⟨[], _, h.cutBefore, by rw [String.ofList_toList]⟩

/-- The foreign numerals in a text are words, and no other words are foreign numerals. -/
theorem exists_foreign_iff {text : String} {tokens : List Token} (h : scan text = .ok tokens) :
    (∃ name, .word name ∈ tokens ∧ IsForeignNumeral name.toList) ↔
      ∃ lexeme ∈ Lexeme.scan text.toList, IsForeignNumeral lexeme.text := by
  obtain ⟨-, rfl⟩ := scan_eq_ok_iff.mp h
  constructor
  · rintro ⟨name, hname, hforeign⟩
    obtain ⟨lexeme, hmem, ht⟩ := List.mem_map.mp hname
    obtain ⟨rest, hcut⟩ := Lexeme.exists_cutBefore_of_mem_scan hmem
    exact ⟨lexeme, hmem, hcut.text_eq ht ▸ hforeign⟩
  · rintro ⟨lexeme, hmem, hforeign⟩
    obtain ⟨rest, hcut⟩ := Lexeme.exists_cutBefore_of_mem_scan hmem
    have hlexeme := hcut.alone.unique hforeign.cutBefore rfl
    refine ⟨String.ofList lexeme.text, List.mem_map.mpr ⟨lexeme, hmem, ?_⟩, ?_⟩
    · exact congrArg Lexeme.token hlexeme
    · rwa [String.toList_ofList]

/-- The words of a text are plain words but for the foreign numerals, and so are the fields of every
condition that is read from a text or from nodes. All words of a text are plain exactly if none of
its lexemes is a foreign numeral. A text that is a foreign numeral itself is one word, and a field
in texts and in nodes. -/
theorem word_plain_or_foreign (text : String) (nodes : Array Node) (root : Nat) :
    (∀ tokens, scan text = .ok tokens →
      (∀ name, .word name ∈ tokens → (IsPlainWord name ↔ ¬IsForeignNumeral name.toList)) ∧
      ((∀ name, .word name ∈ tokens → IsPlainWord name) ↔
        ∀ lexeme ∈ Lexeme.scan text.toList, ¬IsForeignNumeral lexeme.text)) ∧
    (∀ t, Condition.parse text = .ok t →
      ∀ c ∈ t.comparisons, (IsPlainWord c.field ↔ ¬IsForeignNumeral c.field.toList)) ∧
    (∀ t, Condition.ofNodes nodes root = .ok t →
      ∀ c ∈ t.comparisons, (IsPlainWord c.field ↔ ¬IsForeignNumeral c.field.toList)) ∧
    (IsForeignNumeral text.toList →
      let t := Condition.compare ⟨text, .equal, .text "x"⟩
      scan text = .ok [.word text] ∧ Condition.parse t.toText = .ok t ∧
        Condition.ofNodes t.flatten.toArray 0 = .ok t) := by
  refine ⟨fun tokens h => ?_, fun t h c hc => ?_, fun t h c hc => ?_, fun h => ?_⟩
  · have hword : ∀ name, .word name ∈ tokens →
        (IsPlainWord name ↔ ¬IsForeignNumeral name.toList) :=
      fun name hname => isPlainWord_iff (isRead_of_mem_scan h hname)
    refine ⟨hword, ?_⟩
    rw [forall₂_congr hword]
    simpa only [not_exists, not_and] using not_congr (exists_foreign_iff h)
  · exact isPlainWord_iff ((Condition.isRead_of_parse h).2 c hc).field
  · obtain ⟨-, hwritable⟩ := Condition.exists_ofNodes_iff.mp ⟨nodes, root, h⟩
    exact isPlainWord_iff (hwritable c hc).field
  · intro t
    have hscan := scan_toText h.cutBefore (by simp)
    rw [String.ofList_toList] at hscan
    have hsymbol : isComparatorSymbol Comparator.equal.symbol = true := by decide +kernel
    have hliteral : (Literal.text "x").isExpressible = true := by decide +kernel
    have hdepth : t.depth ≤ maxDepth := (by decide : 1 ≤ maxDepth)
    have hwritable : t.IsWritable :=
      List.forall_mem_singleton.mpr ⟨isFieldName_of_foreign h, hsymbol, rfl, hliteral⟩
    exact ⟨hscan, Condition.parse_toText_of_isWritable hdepth hwritable,
      Condition.ofNodes_flatten_of_isWritable hdepth hwritable⟩

/-- A field and a word of digits of another script : the first has a minus, the second is plain. -/
theorem word_plain_or_foreign_digits :
    scan "-٣ > ٤٠" = .ok [.word "-٣", .comparator ">", .word "٤٠"] ∧
    IsForeignNumeral "-٣".toList ∧ ¬IsPlainWord "-٣" ∧ IsPlainWord "٤٠" := by
  have hscan : scan "-٣ > ٤٠" = .ok [.word "-٣", .comparator ">", .word "٤٠"] := by
    decide +kernel
  have hrun : IsRun isDecimalDigit "٣".toList := ⟨by decide, List.all_eq_true.mp (by decide)⟩
  have hforeign : IsForeignNumeral "-٣".toList :=
    .negative (.whole hrun rfl fun _ _ heq => nomatch heq) ⟨'٣', by decide⟩
  have hwords := ((word_plain_or_foreign "-٣ > ٤٠" #[] 0).1 _ hscan).1
  refine ⟨hscan, hforeign, fun hplain => (hwords "-٣" (by simp)).mp hplain hforeign, ?_⟩
  refine (hwords "٤٠" (by simp)).mpr fun h => h.not_isRun ⟨by decide, List.all_eq_true.mp ?_⟩
  decide

/-- The minus before a digit of another script is part of a field. It is no character of a word. -/
theorem scan_foreign_negative :
    scan "-٣ > 1" = .ok [.word "-٣", .comparator ">", .number (.ofInt 1)] ∧
    Condition.parse "-٣ > 1" = .ok (.compare ⟨"-٣", .greater, .number (.ofInt 1)⟩) ∧
    ¬IsPlainWord "-٣" := by
  refine ⟨by decide +kernel, by decide +kernel, fun h => ?_⟩
  exact absurd (h.run.all '-' (by decide)) (by decide)

end Token

end Eligibility
