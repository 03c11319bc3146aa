import Eligibility.Proofs.Grammar
import Eligibility.Proofs.Numeral
import Eligibility.Proofs.Scan

/-!
# Canonical text

`Condition.toText` puts every join in parentheses and every text in quotes. If each comparison of
a condition is legible, that is, if its field and its comparator are cut out of a text as such
and its literal has no quote, then the text is cut into the tokens that were written
(`Condition.cut_toText`), and reading gives `Condition.reread` of it, within the limit on
levels (`parse_toText_of_isLegible`). That is the condition itself except where a literal or
a comparator means something else when it is read : a text that denotes a number, a symbol that
belongs to a known comparator, a number that is not finite.

Whatever is read is legible (`isLegible_of_parse`), so a condition that is read from its own
canonical text was legible to begin with.
-/

namespace Eligibility

open Lexeme (CutBefore NumberBefore Separates separates_space separates_closeParen)

variable {rest : List Char}

/-! ## Numbers -/

namespace Numeral

theorem exponent_plain (negative : Bool) (m : Magnitude) :
    (ofMagnitude .plain negative m).exponent = none := by
  simp [ofMagnitude, NumberStyle.plain]

/-- A numeral without a power of ten is a number in a text. -/
theorem IsSpelled.numberBefore {n : Numeral} (h : n.IsSpelled) :
    NumberBefore [] (n.whole ++ if n.fraction.isEmpty then [] else '.' :: n.fraction) := by
  have hwhole := h.whole.imp fun _ => isDecimalDigit_of_isDigit
  cases hf : n.fraction with
  | nil =>
    rw [List.isEmpty_nil, if_pos rfl, List.append_nil]
    exact .whole hwhole rfl fun _ _ heq => nomatch heq
  | cons c fraction =>
    have hrun : IsRun Char.isDigit (c :: fraction) :=
      ⟨by simp, fun d hd => h.fraction d (hf ▸ hd)⟩
    exact .fraction hwhole (hrun.imp fun _ => isDecimalDigit_of_isDigit) rfl

/-- The spelling of a numeral without a power of ten is the lexeme of its number. -/
theorem IsSpelled.cutBefore {n : Numeral} (h : n.IsSpelled) (he : n.exponent = none) :
    CutBefore [] ⟨.number n.value, n.toText⟩ := by
  have htoken : Lexeme.numberToken n.toText = .number n.value := by
    rw [Lexeme.numberToken, ofText?_toText h]
  have htext : n.toText = (if n.negative then ['-'] else []) ++
      (n.whole ++ if n.fraction.isEmpty then [] else '.' :: n.fraction) := by
    simp [toText, he, exponentText]
  rw [← htoken, htext]
  cases n.negative with
  | true => exact .negative h.numberBefore
  | false => exact .number h.numberBefore

end Numeral

/-- The text of a finite number is the lexeme of the number. -/
theorem Binary64.cutBefore_toText {x : Binary64} (h : x.isFinite = true) :
    CutBefore [] ⟨.number x, x.toText.toList⟩ := by
  cases x with
  | nan => cases h
  | signed negative m =>
    have hm : m.isFinite = true := h
    have hcut := (Numeral.isSpelled_ofMagnitude .plain negative m).cutBefore
      (Numeral.exponent_plain negative m)
    rw [Numeral.value_ofMagnitude .plain negative hm] at hcut
    simpa [toText, hm] using hcut

/-- The word in the name of a number that is not finite. -/
def Binary64.word : Binary64 → String
  | .nan => "NaN"
  | .signed .. => "inf"

/-! ## Literals -/

namespace Literal

/-- A text without quotes, or a number. -/
def HasNoQuote : Literal → Prop
  | number _ => True
  | text value => '\x27' ∉ value.toList

/-- The token in the text of a literal. -/
def token : Literal → Token
  | number value => if value.isFinite then .number value else .word value.word
  | text value => .quoted value

/-- What the text of a literal means when it is read. -/
def reread : Literal → Literal
  | number value => if value.isFinite then number value else .ofText value.word
  | text value => .ofText value

/-- The text of a number that is not finite is cut into one word. -/
theorem cut_word (h : Separates rest) {x : Binary64} (hx : x.isFinite = false) :
    Token.cut (x.toText.toList ++ rest) = .word x.word :: Token.cut rest := by
  have hnan : Token.isFieldName "NaN" = true := by decide +kernel
  have hinf : Token.isFieldName "inf" = true := by decide +kernel
  cases x with
  | nan => exact Token.cut_field hnan h
  | signed negative m =>
    have hm : m.isFinite = false := hx
    cases negative with
    | false => simpa [Binary64.toText, Binary64.word, hm] using Token.cut_field hinf h
    | true =>
      have hdigit : startsWith isDecimalDigit ("inf".toList ++ rest) = false := by
        change isDecimalDigit 'i' = false
        decide
      simpa [Binary64.toText, Binary64.word, hm] using
        (Token.cut_minus (Lexeme.digitsAtStart?_of_startsWith hdigit)).trans
          (Token.cut_field hinf h)

/-- The text of a literal without quotes is cut into one token. -/
theorem cut_toText (h : Separates rest) {literal : Literal} (hq : literal.HasNoQuote) :
    Token.cut (literal.toText.toList ++ rest) = literal.token :: Token.cut rest := by
  cases literal with
  | number x =>
    by_cases hx : x.isFinite = true
    · have hcut := Token.cut_of_cutBefore ((Binary64.cutBefore_toText hx).of_separates h)
      simpa [toText, token, hx] using hcut
    · have hx' : x.isFinite = false := by simpa using hx
      simpa [toText, token, hx'] using cut_word h hx'
  | text s =>
    have hlexeme : CutBefore rest _ := .quoted hq
    simpa [toText, token] using Token.cut_of_cutBefore hlexeme

/-- The token in the text of a literal means what the text does. -/
theorem literal?_token (literal : Literal) : literal.token.literal? = some literal.reread := by
  cases literal with
  | number x =>
    by_cases hx : x.isFinite = true
    · rw [token, reread, if_pos hx, if_pos hx]
      rfl
    · rw [token, reread, if_neg hx, if_neg hx]
      rfl
  | text s => rfl

end Literal

/-! ## Conditions -/

/-- The text of the comparison is cut into its field, its comparator and its literal. -/
structure Comparison.IsLegible (c : Comparison) : Prop where
  field : Token.isFieldName c.field = true
  comparator : Token.isComparatorSymbol c.comparator.symbol = true
  literal : c.literal.HasNoQuote

namespace Condition

/-- The comparisons of a condition, from left to right. -/
def comparisons : Condition → List Comparison
  | compare c => [c]
  | join _ left right => left.comparisons ++ right.comparisons

/-- Every comparison is legible. -/
def IsLegible (condition : Condition) : Prop :=
  ∀ c ∈ condition.comparisons, c.IsLegible

/-- The tokens in the canonical text. -/
def tokens : Condition → List Token
  | compare c => [.word c.field, .comparator c.comparator.symbol, c.literal.token]
  | join connective left right =>
    .openParen :: (left.tokens ++ .connective connective :: right.tokens ++ [.closeParen])

/-- What the canonical text means when it is read. -/
def reread : Condition → Condition
  | compare c => compare ⟨c.field, .ofSymbol c.comparator.symbol, c.literal.reread⟩
  | join connective left right => join connective left.reread right.reread

theorem IsLegible.left {c : Connective} {left right : Condition}
    (h : (join c left right).IsLegible) : left.IsLegible :=
  fun comparison hc => h comparison (List.mem_append_left _ hc)

theorem IsLegible.right {c : Connective} {left right : Condition}
    (h : (join c left right).IsLegible) : right.IsLegible :=
  fun comparison hc => h comparison (List.mem_append_right _ hc)

theorem depth_reread : ∀ condition : Condition, condition.reread.depth = condition.depth
  | compare _ => rfl
  | join _ left right => by
    simp only [reread, depth, depth_reread left, depth_reread right]

theorem tokens_ne_nil (condition : Condition) : condition.tokens ≠ [] := by
  cases condition <;> simp [tokens]

/-- The tokens of the canonical text state what it is read as. -/
theorem derives_tokens : ∀ condition : Condition, Derives .term condition.tokens condition.reread
  | compare c => derives_of_literal? c.field c.comparator.symbol c.literal.literal?_token
  | join connective left right => by
    have inner := (Derives.single (derives_tokens left)).join connective (derives_tokens right)
    exact .group inner

/-- In the canonical text parentheses are no deeper than levels. -/
theorem nesting_tokens_lt : ∀ condition : Condition,
    Token.nesting 0 condition.tokens < condition.depth
  | compare c => by
    have hnone : Token.nesting 0 (compare c).tokens = 0 := by
      simp only [tokens, Literal.token, Token.nesting]
      split <;> try split
      all_goals rfl
    rw [hnone]
    exact Nat.zero_lt_one
  | join connective left right => by
    have hleft := nesting_tokens_lt left
    have hright := nesting_tokens_lt right
    have inner := (Derives.single (derives_tokens left)).join connective (derives_tokens right)
    rw [tokens, nesting_group inner, nesting_join connective (.single (derives_tokens left)), depth]
    omega

/-- The tokens of a comparison, up to those of its literal. -/
theorem cut_comparison {field symbol : String} (hfield : Token.isFieldName field = true)
    (hsymbol : Token.isComparatorSymbol symbol = true) (text : String) (rest : List Char) :
    Token.cut ((field ++ " " ++ symbol ++ " " ++ text).toList ++ rest) =
      .word field :: .comparator symbol :: Token.cut (text.toList ++ rest) := by
  have hspace : " ".toList = [' '] := rfl
  simp only [String.toList_append, List.append_assoc, hspace, List.cons_append, List.nil_append]
  rw [Token.cut_field hfield separates_space, Token.cut_space,
    Token.cut_comparator hsymbol separates_space, Token.cut_space]

/-- A comparison with what is cut into one token is read as it stands. -/
theorem parse_comparison {field symbol text : String} {token : Token} {literal : Literal}
    (hfield : Token.isFieldName field = true) (hsymbol : Token.isComparatorSymbol symbol = true)
    (htext : Token.cut text.toList = [token]) (hliteral : token.literal? = some literal) :
    parse (field ++ " " ++ symbol ++ " " ++ text) =
      .ok (compare ⟨field, .ofSymbol symbol, literal⟩) := by
  have hcut := cut_comparison hfield hsymbol text []
  rw [List.append_nil, List.append_nil, htext] at hcut
  have hscan := Token.scan_eq_ok_iff.mpr ⟨List.cons_ne_nil _ _, hcut⟩
  have hread := ofTokens_of_derives (.single (derives_of_literal? field symbol hliteral))
  have hlimits : WithinLimits [.word field, .comparator symbol, token]
      (compare ⟨field, .ofSymbol symbol, literal⟩) := by
    refine ⟨?_, show 1 ≤ maxDepth by decide⟩
    cases token with
    | openParen | closeParen | connective | comparator => cases hliteral
    | word | quoted | number => exact Nat.zero_le maxDepth
  rw [parse, hscan]
  exact hread.trans (if_pos hlimits)

/-- The canonical text is cut into the tokens that were written. -/
theorem cut_toText : ∀ (condition : Condition) (rest : List Char), condition.IsLegible →
    Separates rest →
      Token.cut (condition.toText.toList ++ rest) = condition.tokens ++ Token.cut rest
  | compare c, rest, h, hs => by
    have hc := h c (List.mem_singleton_self c)
    rw [toText, Comparison.toText, cut_comparison hc.field hc.comparator,
      Literal.cut_toText hs hc.literal, tokens]
    rfl
  | join connective left right, rest, h, hs => by
    have hspace : " ".toList = [' '] := rfl
    have hopen : "(".toList = ['('] := rfl
    have hclose : ")".toList = [')'] := rfl
    simp only [toText, String.toList_append, List.append_assoc, hspace, hopen, hclose,
      List.cons_append, List.nil_append]
    rw [Token.cut_openParen, cut_toText left _ h.left separates_space, Token.cut_space,
      Token.cut_connective connective separates_space, Token.cut_space,
      cut_toText right _ h.right separates_closeParen, Token.cut_closeParen, tokens]
    simp

/-- A legible condition is read from its canonical text, within the limit on levels. -/
theorem parse_toText_of_isLegible {condition : Condition} (h : condition.IsLegible) :
    parse condition.toText =
      if condition.depth ≤ maxDepth then .ok condition.reread else .error .tooDeep := by
  have hcut := cut_toText condition [] h Lexeme.separates_nil
  rw [List.append_nil, Token.cut_nil, List.append_nil] at hcut
  have hscan := Token.scan_eq_ok_iff.mpr ⟨condition.tokens_ne_nil, hcut⟩
  have hread := ofTokens_of_derives (.single condition.derives_tokens)
  have hlimits : WithinLimits condition.tokens condition.reread ↔ condition.depth ≤ maxDepth := by
    have := condition.nesting_tokens_lt
    rw [WithinLimits, depth_reread]
    omega
  simp only [hlimits] at hread
  rw [parse, hscan]
  exact hread

end Condition

/-! ## What is read -/

/-- A comparison as it comes from a text : legible, with the comparator of its symbol, and with a
text only where that denotes no number. -/
structure Comparison.IsRead (c : Comparison) : Prop extends c.IsLegible where
  canonical : Comparator.ofSymbol c.comparator.symbol = c.comparator
  text : ∀ s, c.literal = .text s → Literal.ofText s = .text s

theorem Comparison.isRead_ofSymbol {field symbol : String} {literal : Literal}
    (hfield : Token.isFieldName field = true) (hsymbol : Token.isComparatorSymbol symbol = true)
    (hquote : literal.HasNoQuote) (htext : ∀ s, literal = .text s → Literal.ofText s = .text s) :
    IsRead ⟨field, .ofSymbol symbol, literal⟩ where
  field := hfield
  comparator := by rwa [Comparator.symbol_ofSymbol]
  literal := hquote
  canonical := by rw [Comparator.symbol_ofSymbol]
  text := htext

namespace Literal

theorem eq_of_ofText {s s' : String} (h : ofText s = .text s') : s' = s := by
  unfold ofText at h
  split at h
  · cases h
  · exact (Literal.text.inj h).symm

/-- A text that means itself means itself again. -/
theorem ofText_of_ofText {s s' : String} (h : ofText s = .text s') : ofText s' = .text s' := by
  obtain rfl := eq_of_ofText h
  exact h

theorem hasNoQuote_ofText {s : String} (h : '\x27' ∉ s.toList) : (ofText s).HasNoQuote := by
  cases hl : ofText s with
  | number => trivial
  | text s' => exact eq_of_ofText hl ▸ h

end Literal

/-- Tokens that are cut out of texts state comparisons as they come from texts. -/
theorem Derives.isRead {phrase : Phrase} {tokens : List Token} {condition : Condition}
    (h : Derives phrase tokens condition)
    (hcut : ∀ token ∈ tokens, ∃ rest lexeme, CutBefore rest lexeme ∧ lexeme.token = token) :
    ∀ c ∈ condition.comparisons, c.IsRead := by
  induction h with
  | number field symbol value =>
    intro c hc
    obtain rfl := List.mem_singleton.mp hc
    exact Comparison.isRead_ofSymbol (Token.isFieldName_iff.mpr (hcut _ (by simp)))
      (Token.isComparatorSymbol_iff.mpr (hcut _ (by simp))) trivial fun s hs => nomatch hs
  | quoted field symbol text =>
    intro c hc
    obtain rfl := List.mem_singleton.mp hc
    obtain ⟨_, lexeme, hlexeme, htoken⟩ := hcut (.quoted text) (by simp)
    exact Comparison.isRead_ofSymbol (Token.isFieldName_iff.mpr (hcut _ (by simp)))
      (Token.isComparatorSymbol_iff.mpr (hcut _ (by simp)))
      (Literal.hasNoQuote_ofText (hlexeme.quote_notMem (.inr htoken)))
      fun s => Literal.ofText_of_ofText
  | word field symbol text =>
    intro c hc
    obtain rfl := List.mem_singleton.mp hc
    obtain ⟨_, lexeme, hlexeme, htoken⟩ := hcut (.word text) (by simp)
    exact Comparison.isRead_ofSymbol (Token.isFieldName_iff.mpr (hcut _ (by simp)))
      (Token.isComparatorSymbol_iff.mpr (hcut _ (by simp)))
      (Literal.hasNoQuote_ofText (hlexeme.quote_notMem (.inl htoken)))
      fun s => Literal.ofText_of_ofText
  | group _ ih => exact ih fun token ht => hcut token (by simp [ht])
  | single _ ih => exact ih hcut
  | join _ _ _ ih ih' =>
    intro c hc
    rcases List.mem_append.mp hc with hc | hc
    · exact ih (fun token ht => hcut token (by simp [ht])) c hc
    · exact ih' (fun token ht => hcut token (by simp [ht])) c hc

namespace Condition

/-- Every comparison that is read is one that comes from a text, and the levels are within the
limit. -/
theorem isRead_of_parse {text : String} {condition : Condition} (h : parse text = .ok condition) :
    condition.depth ≤ maxDepth ∧ ∀ c ∈ condition.comparisons, c.IsRead := by
  cases hscan : Token.scan text with
  | error e =>
    rw [parse, hscan] at h
    cases h
  | ok tokens =>
    rw [parse, hscan] at h
    obtain ⟨derives, -, hdepth⟩ := ofTokens_eq_ok_iff.mp h
    exact ⟨hdepth, derives.isRead fun token => Token.exists_cutBefore_of_mem_scan hscan⟩

theorem isLegible_of_parse {text : String} {condition : Condition}
    (h : parse text = .ok condition) : condition.IsLegible :=
  fun c hc => ((isRead_of_parse h).2 c hc).toIsLegible

end Condition

end Eligibility
