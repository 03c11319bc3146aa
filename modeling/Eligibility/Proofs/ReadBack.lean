import Eligibility.Evaluation
import Eligibility.Proofs.CanonicalText

/-!
# Conditions that read back

A comparison can be written (`Comparison.IsWritable`) if its field is a word, its comparator is
the one of its symbol, and some rule text means its literal. Main statements :

* `parse_toText_eq_ok_iff` : a condition reads back from its canonical text exactly if all of its
  comparisons can be written and its levels are within the limit. It makes no difference whether
  the condition read has to be the same or only equal by value;
* `parse_toText_of_parse` : a condition that was read from a text reads back exactly if its
  numbers are finite. A number in digits may be infinite, and then its text is a word
  (`parse_toText_of_infinite`).
-/

namespace Eligibility

/-- Some rule text states the comparison. -/
structure Comparison.IsWritable (c : Comparison) : Prop where
  field : Token.isFieldName c.field = true
  comparator : Token.isComparatorSymbol c.comparator.symbol = true
  canonical : Comparator.ofSymbol c.comparator.symbol = c.comparator
  literal : c.literal.isExpressible = true

/-- Every comparison can be written. -/
def Condition.IsWritable (condition : Condition) : Prop :=
  ∀ c ∈ condition.comparisons, c.IsWritable

theorem Binary64.sameAs_self {x : Binary64} (h : x.isFinite = true) : x.sameAs x = true := by
  cases x with
  | nan => cases h
  | signed negative m => cases negative <;> simp [sameAs, compare?, position?]

/-! ## Literals -/

namespace Literal

/-- The name of a number that is not finite means itself. -/
theorem ofText_word (x : Binary64) : ofText x.word = .text x.word := by
  have hnan : ofText "NaN" = .text "NaN" := by decide
  have hinf : ofText "inf" = .text "inf" := by decide
  cases x with
  | nan => exact hnan
  | signed => exact hinf

theorem isExpressible_text_iff {s : String} :
    (text s).isExpressible = true ↔ '\x27' ∉ s.toList ∧ ofText s = .text s := by
  simp [isExpressible]

/-- A literal that can be expressed means itself. -/
theorem reread_of_isExpressible {literal : Literal} (h : literal.isExpressible = true) :
    literal.reread = literal := by
  cases literal with
  | number x => exact if_pos h
  | text s => exact (isExpressible_text_iff.mp h).2

/-- Only finite numbers are read from words and quoted texts. -/
theorem isFinite_of_ofText {s : String} {x : Binary64} (h : ofText s = number x) :
    x.isFinite = true := by
  unfold ofText at h
  split at h
  · rename_i y hy
    obtain rfl := Literal.number.inj h
    exact (Option.filter_eq_some_iff.mp hy).2
  · cases h

theorem ofText_sameAs_self (s : String) : (ofText s).sameAs (ofText s) = true := by
  cases h : ofText s with
  | number x => exact Binary64.sameAs_self (isFinite_of_ofText h)
  | text s' => simp [sameAs]

/-- What a literal is read as equals itself, since it is never NaN. -/
theorem sameAs_reread (literal : Literal) : literal.reread.sameAs literal.reread = true := by
  cases literal with
  | number x =>
    by_cases hx : x.isFinite = true
    · rw [reread, if_pos hx]
      exact Binary64.sameAs_self hx
    · rw [reread, if_neg hx]
      exact ofText_sameAs_self x.word
  | text s => exact ofText_sameAs_self s

theorem hasNoQuote_of_isExpressible {literal : Literal} (h : literal.isExpressible = true) :
    literal.HasNoQuote := by
  cases literal with
  | number x => trivial
  | text s => exact (isExpressible_text_iff.mp h).1

/-- A literal without quotes that means itself, or a number of the same value, can be
expressed. -/
theorem isExpressible_of_sameAs {literal : Literal} (hq : literal.HasNoQuote)
    (h : literal.reread.sameAs literal = true) : literal.isExpressible = true := by
  cases literal with
  | number x =>
    by_contra hx
    have hname : (number x).reread = .text x.word := (if_neg hx).trans (ofText_word x)
    rw [hname] at h
    cases h
  | text s =>
    refine isExpressible_text_iff.mpr ⟨hq, ?_⟩
    cases hl : ofText s with
    | number x =>
      rw [reread, hl] at h
      cases h
    | text s' => rw [eq_of_ofText hl]

end Literal

/-! ## Conditions -/

namespace Condition

theorem IsWritable.left {c : Connective} {left right : Condition}
    (h : (join c left right).IsWritable) : left.IsWritable :=
  fun comparison hc => h comparison (List.mem_append_left _ hc)

theorem IsWritable.right {c : Connective} {left right : Condition}
    (h : (join c left right).IsWritable) : right.IsWritable :=
  fun comparison hc => h comparison (List.mem_append_right _ hc)

theorem IsWritable.isLegible {condition : Condition} (h : condition.IsWritable) :
    condition.IsLegible := fun c hc =>
  ⟨(h c hc).field, (h c hc).comparator, Literal.hasNoQuote_of_isExpressible (h c hc).literal⟩

/-- A condition that can be written means itself. -/
theorem reread_of_isWritable : ∀ {condition : Condition}, condition.IsWritable →
    condition.reread = condition
  | compare c, h => by
    have hc := h c (List.mem_singleton_self c)
    rw [reread, hc.canonical, Literal.reread_of_isExpressible hc.literal]
  | join _ left right, h => by
    rw [reread, reread_of_isWritable h.left, reread_of_isWritable h.right]

/-- What a condition is read as equals itself by value. -/
theorem sameAs_reread : ∀ condition : Condition,
    condition.reread.sameAs condition.reread = true
  | compare c => by simp [reread, sameAs, Comparison.sameAs, Literal.sameAs_reread]
  | join _ left right => by simp [reread, sameAs, sameAs_reread left, sameAs_reread right]

theorem hasNoQuote_of_sameAs {l l' : Literal} (h : l.sameAs l' = true) (hq : l.HasNoQuote) :
    l'.HasNoQuote := by
  cases l with
  | number x =>
    cases l' with
    | number y => trivial
    | text t => cases h
  | text s =>
    cases l' with
    | number y => cases h
    | text t =>
      obtain rfl : s = t := by simpa [Literal.sameAs] using h
      exact hq

/-- Legibility does not tell conditions apart that are equal by value. -/
theorem isLegible_of_sameAs : ∀ {u t : Condition}, u.sameAs t = true → u.IsLegible → t.IsLegible
  | compare c, compare d, h, hu => by
    have hc := hu c (List.mem_singleton_self c)
    simp only [sameAs, Comparison.sameAs, Bool.and_eq_true, beq_iff_eq] at h
    obtain ⟨⟨hfield, hcomparator⟩, hliteral⟩ := h
    intro e he
    obtain rfl := List.mem_singleton.mp he
    exact ⟨hfield ▸ hc.field, hcomparator ▸ hc.comparator,
      hasNoQuote_of_sameAs hliteral hc.literal⟩
  | join _ ul ur, join _ tl tr, h, hu => by
    simp only [sameAs, Bool.and_eq_true] at h
    intro e he
    rcases List.mem_append.mp he with he | he
    · exact isLegible_of_sameAs h.1.2 hu.left e he
    · exact isLegible_of_sameAs h.2 hu.right e he
  | compare _, join .., h, _ => by simp [sameAs] at h
  | join .., compare _, h, _ => by simp [sameAs] at h

/-- A legible condition that means itself up to equality by value can be written. -/
theorem isWritable_of_sameAs : ∀ {t : Condition}, t.IsLegible → t.reread.sameAs t = true →
    t.IsWritable
  | compare c, ht, h => by
    have hc := ht c (List.mem_singleton_self c)
    simp only [reread, sameAs, Comparison.sameAs, Bool.and_eq_true, beq_iff_eq] at h
    intro e he
    obtain rfl := List.mem_singleton.mp he
    exact ⟨hc.field, hc.comparator, h.1.2, Literal.isExpressible_of_sameAs hc.literal h.2⟩
  | join _ left right, ht, h => by
    simp only [reread, sameAs, Bool.and_eq_true] at h
    intro e he
    rcases List.mem_append.mp he with he | he
    · exact isWritable_of_sameAs ht.left h.1.2 e he
    · exact isWritable_of_sameAs ht.right h.2 e he

/-- What a legible condition is read as is the same, or equal by value, only if the condition can be
written. -/
theorem reread_sameAs_iff {t : Condition} (legible : t.IsLegible) :
    t.reread.sameAs t = true ↔ t.IsWritable := by
  constructor
  · exact isWritable_of_sameAs legible
  · intro h
    have hself := t.sameAs_reread
    rwa [reread_of_isWritable h] at hself ⊢

theorem reread_eq_iff {t : Condition} (legible : t.IsLegible) : t.reread = t ↔ t.IsWritable := by
  constructor
  · intro h
    have hself := t.sameAs_reread
    exact (reread_sameAs_iff legible).mp (by rwa [h] at hself ⊢)
  · exact reread_of_isWritable

theorem parse_toText_of_isWritable {t : Condition} (hdepth : t.depth ≤ maxDepth)
    (h : t.IsWritable) : parse t.toText = .ok t := by
  rw [parse_toText_of_isLegible h.isLegible, if_pos hdepth, reread_of_isWritable h]

/-- A condition that equals by value what is read from its canonical text can be written. -/
theorem isWritable_of_parse_toText {t u : Condition} (h : parse t.toText = .ok u)
    (hs : u.sameAs t = true) : t.depth ≤ maxDepth ∧ t.IsWritable := by
  -- what is read is legible, and so is its equal, whose text therefore holds the tokens written
  have legible := isLegible_of_sameAs hs (isLegible_of_parse h)
  rw [parse_toText_of_isLegible legible] at h
  split at h
  · rename_i hdepth
    obtain rfl := Except.ok.inj h
    exact ⟨hdepth, isWritable_of_sameAs legible hs⟩
  · cases h

/-- What is read from a canonical text equals itself by value. -/
theorem sameAs_self_of_parse_toText {t u : Condition} (h : parse t.toText = .ok u)
    (legible : t.IsLegible) : u.sameAs u = true := by
  rw [parse_toText_of_isLegible legible] at h
  split at h
  · obtain rfl := Except.ok.inj h
    exact t.sameAs_reread
  · cases h

/-- A condition reads back from its canonical text exactly if its levels are within the limit and
all its comparisons can be written. -/
theorem parse_toText_eq_ok_iff (t : Condition) :
    ((∃ u, parse t.toText = .ok u ∧ u.sameAs t = true) ↔ t.depth ≤ maxDepth ∧ t.IsWritable) ∧
    (parse t.toText = .ok t ↔ t.depth ≤ maxDepth ∧ t.IsWritable) := by
  have back : t.depth ≤ maxDepth ∧ t.IsWritable → parse t.toText = .ok t :=
    fun h => parse_toText_of_isWritable h.1 h.2
  have same : parse t.toText = .ok t → t.sameAs t = true :=
    fun h => sameAs_self_of_parse_toText h (isLegible_of_parse h)
  constructor
  · constructor
    · rintro ⟨u, hu, hs⟩
      exact isWritable_of_parse_toText hu hs
    · exact fun h => ⟨t, back h, same (back h)⟩
  · exact ⟨fun h => isWritable_of_parse_toText h (same h), back⟩

/-! ## Conditions that were read -/

/-- No number of the condition is infinite or NaN. -/
def HasFiniteNumbers (condition : Condition) : Prop :=
  ∀ c ∈ condition.comparisons, ∀ x, c.literal = .number x → x.isFinite = true

/-- A condition with finite numbers equals itself by value. -/
theorem sameAs_self : ∀ {t : Condition}, t.HasFiniteNumbers → t.sameAs t = true
  | compare c, h => by
    have hliteral : c.literal.sameAs c.literal = true := by
      cases hl : c.literal with
      | number x => exact Binary64.sameAs_self (h c (List.mem_singleton_self c) x hl)
      | text s => exact beq_self_eq_true s
    simp [sameAs, Comparison.sameAs, hliteral]
  | join _ left right, h => by
    obtain ⟨hleft, hright⟩ := List.forall_mem_append.mp h
    simp [sameAs, sameAs_self hleft, sameAs_self hright]

theorem isExpressible_of_isRead {c : Comparison} (h : c.IsRead)
    (hfinite : ∀ x, c.literal = .number x → x.isFinite = true) :
    c.literal.isExpressible = true := by
  have hquote := h.literal
  cases hl : c.literal with
  | number x => exact hfinite x hl
  | text s =>
    rw [hl] at hquote
    exact Literal.isExpressible_text_iff.mpr ⟨hquote, h.text s hl⟩

/-- Of the conditions that are read from texts, those with finite numbers can be written. -/
theorem isWritable_iff_of_parse {text : String} {t : Condition} (h : parse text = .ok t) :
    t.IsWritable ↔ t.HasFiniteNumbers := by
  constructor
  · intro hw c hc x hx
    have hexpressible := (hw c hc).literal
    rw [hx] at hexpressible
    exact hexpressible
  · intro hfinite c hc
    have hread := (isRead_of_parse h).2 c hc
    exact ⟨hread.field, hread.comparator, hread.canonical,
      isExpressible_of_isRead hread (hfinite c hc)⟩

/-- The canonical text of a condition that was read from a text is read again, and as the same
condition exactly if the numbers of the condition are finite. Then no record tells the two
apart. -/
theorem parse_toText_of_parse {text : String} {t : Condition} (h : parse text = .ok t) :
    ∃ u, parse t.toText = .ok u ∧ (u = t ↔ t.HasFiniteNumbers) ∧
      (u.sameAs t = true ↔ t.HasFiniteNumbers) ∧
      (t.HasFiniteNumbers → ∀ record : Record, u.eval record = t.eval record) := by
  have legible := isLegible_of_parse h
  have hread := parse_toText_of_isLegible legible
  rw [if_pos (isRead_of_parse h).1] at hread
  have hwritable := isWritable_iff_of_parse h
  have heq : t.reread = t ↔ t.HasFiniteNumbers := (reread_eq_iff legible).trans hwritable
  exact ⟨t.reread, hread, heq, (reread_sameAs_iff legible).trans hwritable,
    fun hfinite record => by rw [heq.mpr hfinite]⟩

/-- A rule is read again with quotes around its text and parentheses around the whole. -/
theorem parse_toText_of_parse_joined :
    parse "age >= 30 OR (name != Ann)" = .ok (.join .or
      (.compare ⟨"age", .greaterEqual, .number (.ofInt 30)⟩)
      (.compare ⟨"name", .notEqual, .text "Ann"⟩)) ∧
    parse "(age >= 30 OR name != 'Ann')" = .ok (.join .or
      (.compare ⟨"age", .greaterEqual, .number (.ofInt 30)⟩)
      (.compare ⟨"name", .notEqual, .text "Ann"⟩)) := by
  have hread : parse "age >= 30 OR (name != Ann)" = .ok (.join .or
      (.compare ⟨"age", .greaterEqual, .number (.ofInt 30)⟩)
      (.compare ⟨"name", .notEqual, .text "Ann"⟩)) := by decide +kernel
  have htext : (join .or (.compare ⟨"age", .greaterEqual, .number (.ofInt 30)⟩)
      (.compare ⟨"name", .notEqual, .text "Ann"⟩)).toText = "(age >= 30 OR name != 'Ann')" := by
    decide +kernel
  obtain ⟨u, hu, heq, -⟩ := parse_toText_of_parse hread
  refine ⟨hread, ?_⟩
  rw [← htext, hu, heq.mpr]
  intro c hc x hx
  simp only [comparisons, List.cons_append, List.nil_append, List.mem_cons, List.not_mem_nil,
    or_false] at hc
  rcases hc with rfl | rfl
  · cases hx
    decide +kernel
  · cases hx

/-- Three hundred and ten nines are more than any finite number. They are read as infinity, whose
name is read as a word, and a record tells the two apart. -/
theorem parse_toText_of_infinite :
    parse (String.ofList (['a', ' ', '>', ' '] ++ List.replicate 310 '9')) =
      .ok (compare ⟨"a", .greater, .number (.signed false .infinity)⟩) ∧
    parse (compare ⟨"a", .greater, .number (.signed false .infinity)⟩).toText =
      .ok (compare ⟨"a", .greater, .text "inf"⟩) ∧
    (compare ⟨"a", .greater, .number (.signed false .infinity)⟩).eval
      (.ofList [("a", .text "z")]) = .ok false ∧
    (compare ⟨"a", .greater, .text "inf"⟩).eval (.ofList [("a", .text "z")]) = .ok true := by
  refine ⟨?_, by decide +kernel, by decide +kernel, by decide +kernel⟩
  have hcut : Token.cut (String.ofList (['a', ' ', '>', ' '] ++ List.replicate 310 '9')).toList =
      [.word "a", .comparator ">", .number (.signed false .infinity)] := by
    rw [String.toList_ofList]
    decide +kernel
  rw [parse, Token.scan_eq_ok_iff.mpr ⟨by simp, hcut⟩]
  decide +kernel

end Condition

end Eligibility
