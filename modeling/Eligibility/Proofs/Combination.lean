import Eligibility.Combination
import Eligibility.Proofs.ReadBack

/-!
# Combined conditions

`Condition.combine` joins two or more conditions by `OR` from the left, unless that takes more
than `maxDepth` levels. Main statements :

* `combine_spec` : which lists are combined, and to what. The result tests a record as all the
  conditions do one after another : the first failure is its failure, and if there is none it
  holds where one of them does (`IsEagerDisjunction`);
* `combine_append` : to combine some conditions first and more of them later is to combine all of
  them at once;
* `parse_alternatives_iff_combine` : the canonical texts of the conditions with `OR` between them
  are read as what the conditions are combined to. The reader counts levels and open parentheses
  as it goes along, and yet refuses exactly the lists that are not combined.
-/

namespace Eligibility

namespace Condition

/-! ## Joining -/

theorem size_joinAll (first : Condition) (others : List Condition) :
    (joinAll first others).size = ((first :: others).map size).sum + others.length := by
  induction others generalizing first with
  | nil => simp [joinAll]
  | cons other others ih =>
    have := ih (join .or first other)
    simp only [joinAll, List.foldl_cons, List.map_cons, List.sum_cons, size,
      List.length_cons] at this ⊢
    omega

/-- Further conditions are joined to what has been joined. -/
theorem joinAll_append (first : Condition) (others more : List Condition) :
    joinAll first (others ++ more) = joinAll (joinAll first others) more :=
  List.foldl_append

/-- Every further condition takes a level more, at least. -/
theorem depth_add_length_le (first : Condition) (others : List Condition) :
    first.depth + others.length ≤ (joinAll first others).depth := by
  induction others generalizing first with
  | nil => exact Nat.le_refl _
  | cons other others ih =>
    have hjoin := ih (join .or first other)
    rw [depth] at hjoin
    rw [joinAll, List.foldl_cons, ← joinAll, List.length_cons]
    omega

/-- Two or more conditions are joined, unless that takes too many levels. -/
theorem combine_cons {first : Condition} {others : List Condition} (h : others ≠ []) :
    combine (first :: others) =
      if (joinAll first others).depth ≤ maxDepth then .ok (joinAll first others)
      else .error (.tooDeep (joinAll first others).depth) := by
  obtain ⟨second, others, rfl⟩ := List.exists_cons_of_ne_nil h
  rw [combine, ← depth_joinAll]
  by_cases hdepth : (joinAll first (second :: others)).depth ≤ maxDepth
  · rw [if_pos hdepth]
    exact if_neg (Nat.not_lt.mpr hdepth)
  · rw [if_neg hdepth]
    exact if_pos (Nat.not_le.mp hdepth)

theorem combine_eq_tooFew_iff {conditions : List Condition} {found : Nat} :
    combine conditions = .error (.tooFew found) ↔ found = conditions.length ∧ found < 2 := by
  match conditions with
  | [] | [_] =>
    simp only [combine, Except.error.injEq, CombineError.tooFew.injEq]
    constructor
    · rintro rfl
      exact ⟨rfl, by simp⟩
    · exact fun h => h.1.symm
  | first :: second :: others =>
    rw [combine_cons (List.cons_ne_nil _ _)]
    constructor
    · intro h
      split at h <;> cases h
    · simp only [List.length_cons]
      omega

theorem combine_eq_tooDeep_iff {conditions : List Condition} {depth : Nat} :
    combine conditions = .error (.tooDeep depth) ↔ ∃ first others,
      conditions = first :: others ∧ others ≠ [] ∧ depth = (joinAll first others).depth ∧
        maxDepth < depth := by
  constructor
  · intro h
    match conditions with
    | [] | [_] => cases h
    | first :: second :: others =>
      rw [combine_cons (List.cons_ne_nil _ _)] at h
      split at h
      · cases h
      · rename_i hdepth
        cases h
        exact ⟨first, second :: others, rfl, by simp, rfl, Nat.not_le.mp hdepth⟩
  · rintro ⟨first, others, rfl, hne, rfl, hdepth⟩
    rw [combine_cons hne, if_neg (Nat.not_le.mpr hdepth)]

theorem combine_eq_ok_iff {conditions : List Condition} {c : Condition} :
    combine conditions = .ok c ↔ ∃ first others,
      conditions = first :: others ∧ others ≠ [] ∧ c = joinAll first others ∧
        c.depth ≤ maxDepth := by
  constructor
  · intro h
    match conditions with
    | [] | [_] => cases h
    | first :: second :: others =>
      rw [combine_cons (List.cons_ne_nil _ _)] at h
      split at h
      · rename_i hdepth
        cases h
        exact ⟨first, second :: others, rfl, by simp, rfl, hdepth⟩
      · cases h
  · rintro ⟨first, others, rfl, hne, rfl, hdepth⟩
    rw [combine_cons hne, if_pos hdepth]

/-! ## Evaluation -/

/-- The condition tests a record as the listed ones do one after another : it fails as the first
of them that fails, and otherwise holds where one of them does. -/
structure IsEagerDisjunction (conditions : List Condition) (condition : Condition) : Prop where
  error_iff : ∀ record e, condition.eval record = .error e ↔ ∃ before failing after,
    conditions = before ++ failing :: after ∧ (∀ t ∈ before, ∃ b, t.eval record = .ok b) ∧
      failing.eval record = .error e
  ok_iff : ∀ record b, condition.eval record = .ok b ↔
    (∀ t ∈ conditions, ∃ b, t.eval record = .ok b) ∧
      (b = true ↔ ∃ t ∈ conditions, t.eval record = .ok true)

/-- Joined conditions are evaluated one after another before any results are joined. -/
theorem eval_joinAll (record : Record) (first : Condition) (others : List Condition) :
    (joinAll first others).eval record =
      ((first :: others).mapM (eval record)).map (List.any · id) := by
  induction others generalizing first with
  | nil =>
    rw [List.mapM_cons, List.mapM_nil, joinAll, List.foldl_nil]
    cases first.eval record <;> simp [Except.map, bind, Except.bind, pure, Except.pure]
  | cons other others ih =>
    have hjoin := ih (join .or first other)
    rw [joinAll, List.foldl_cons, ← joinAll, hjoin]
    simp only [List.mapM_cons, eval, bind_assoc]
    cases first.eval record <;> cases other.eval record <;> cases others.mapM (eval record) <;>
      simp [Except.map, bind, Except.bind, pure, Except.pure, Connective.apply, Bool.or_assoc]

theorem isEagerDisjunction_joinAll (first : Condition) (others : List Condition) :
    IsEagerDisjunction (first :: others) (joinAll first others) where
  error_iff record e := by
    rw [eval_joinAll, ← mapM_eq_error_iff]
    cases (first :: others).mapM (eval record) <;> simp [Except.map]
  ok_iff record b := by
    rw [eval_joinAll]
    cases hresults : (first :: others).mapM (eval record) with
    | error e =>
      obtain ⟨before, failing, after, heq, -, hfailing⟩ := mapM_eq_error_iff.mp hresults
      constructor
      · intro h
        cases h
      · rintro ⟨hall, -⟩
        obtain ⟨b, hb⟩ := hall failing (by simp [heq])
        cases hfailing.symm.trans hb
    | ok results =>
      have hany : results.any id = true ↔ ∃ t ∈ first :: others, t.eval record = .ok true := by
        rw [← mem_iff_of_mapM hresults]
        simp
      rw [Except.map, Except.ok.injEq, ← hany, ← Bool.eq_iff_iff, eq_comm]
      exact (and_iff_right (forall_of_mapM hresults)).symm

/-- Fewer than two conditions are not combined, nor are those that would have too many levels
joined from the left. All others are so joined : the depth is the one reckoned beforehand, there
is a node more for each further condition, and the result is their eager disjunction. -/
theorem combine_spec (conditions : List Condition) :
    (∀ found, combine conditions = .error (.tooFew found) ↔
      found = conditions.length ∧ found < 2) ∧
    (∀ depth, combine conditions = .error (.tooDeep depth) ↔ ∃ first others,
      conditions = first :: others ∧ others ≠ [] ∧ depth = (joinAll first others).depth ∧
        maxDepth < depth) ∧
    (∀ c, combine conditions = .ok c ↔ ∃ first others,
      conditions = first :: others ∧ others ≠ [] ∧ c = joinAll first others ∧
        c.depth ≤ maxDepth) ∧
    (∀ c, combine conditions = .ok c →
      (∃ first others, conditions = first :: others ∧ c.depth = joinedDepth first others) ∧
        c.size = (conditions.map size).sum + conditions.length - 1 ∧
        IsEagerDisjunction conditions c) := by
  refine ⟨fun _ => combine_eq_tooFew_iff, fun _ => combine_eq_tooDeep_iff,
    fun _ => combine_eq_ok_iff, fun c h => ?_⟩
  obtain ⟨first, others, rfl, -, rfl, -⟩ := combine_eq_ok_iff.mp h
  exact ⟨⟨first, others, rfl, depth_joinAll first others⟩, size_joinAll first others,
    isEagerDisjunction_joinAll first others⟩

/-- The second of three conditions fails, so the combination does, though the first holds. -/
theorem combine_spec_missing :
    let a := compare ⟨"a", .equal, .text "x"⟩
    let b := compare ⟨"b", .equal, .text "x"⟩
    combine [a, b, a] = .ok (join .or (join .or a b) a) ∧
      (join .or (join .or a b) a).eval (.ofList [("a", .text "x")]) =
        .error (.missingField "b") := by
  intro a b
  have hcombine : combine [a, b, a] = .ok (join .or (join .or a b) a) := by decide
  obtain ⟨-, -, hdisjunction⟩ := (combine_spec [a, b, a]).2.2.2 _ hcombine
  refine ⟨hcombine, (hdisjunction.error_iff _ _).mpr ⟨[a], b, [a], rfl, ?_, by decide +kernel⟩⟩
  intro t ht
  obtain rfl := List.mem_singleton.mp ht
  exact ⟨true, by decide +kernel⟩

/-! ## Combining in stages -/

/-- Once conditions have been combined, more of them can be combined with the result. That gives
what all of them give at once, be it a condition or the depth that is too much. If the first ones
are too deep, so are all of them, by a level more for each further condition at least. -/
theorem combine_append {conditions more : List Condition} (hmore : more ≠ []) :
    (∀ c, combine conditions = .ok c →
      combine (c :: more) = combine (conditions ++ more) ∧
      combine (conditions ++ more) =
        if (joinAll c more).depth ≤ maxDepth then .ok (joinAll c more)
        else .error (.tooDeep (joinAll c more).depth)) ∧
    ∀ depth, combine conditions = .error (.tooDeep depth) → ∃ depth',
      depth + more.length ≤ depth' ∧ combine (conditions ++ more) = .error (.tooDeep depth') := by
  refine ⟨fun c h => ?_, fun depth h => ?_⟩
  · obtain ⟨first, others, rfl, -, rfl, -⟩ := combine_eq_ok_iff.mp h
    rw [List.cons_append, combine_cons hmore,
      combine_cons (List.append_ne_nil_of_right_ne_nil _ hmore), joinAll_append]
    exact ⟨rfl, rfl⟩
  · obtain ⟨first, others, rfl, -, rfl, hdepth⟩ := combine_eq_tooDeep_iff.mp h
    have hle := depth_add_length_le (joinAll first others) more
    refine ⟨_, hle, combine_eq_tooDeep_iff.mpr ⟨first, others ++ more, rfl,
      List.append_ne_nil_of_right_ne_nil _ hmore, ?_, ?_⟩⟩
    · rw [joinAll_append]
    · omega

/-- As many comparisons as there may be levels are combined, and one more is too many, whether it
comes with them or later. -/
theorem combine_append_limit :
    let a := compare ⟨"a", .greater, .number (.ofInt 1)⟩
    let conditions := List.replicate 512 a
    ∃ c, combine conditions = .ok c ∧ combine (conditions ++ [a]) = .error (.tooDeep 513) ∧
      combine (c :: [a]) = .error (.tooDeep 513) := by
  intro a conditions
  have hdepth : (joinAll a (List.replicate 511 a)).depth = 512 := by
    rw [depth_joinAll]
    decide +kernel
  have hcombine : combine conditions = .ok (joinAll a (List.replicate 511 a)) :=
    combine_eq_ok_iff.mpr ⟨a, _, rfl, List.cons_ne_nil a (List.replicate 510 a), rfl, hdepth.le⟩
  obtain ⟨hstages, hvalue⟩ := (combine_append (List.cons_ne_nil a [])).1 _ hcombine
  have hdeep : (joinAll (joinAll a (List.replicate 511 a)) [a]).depth = 513 := by
    rw [depth_joinAll, joinedDepth, hdepth]
    rfl
  rw [hdeep] at hvalue
  exact ⟨_, hcombine, hvalue, hstages.trans hvalue⟩

/-! ## Reading the texts of conditions with `OR` between them -/

/-- Conditions with `OR` between them, each in its canonical text. -/
def alternatives (conditions : List Condition) : String :=
  " OR ".intercalate (conditions.map toText)

/-- The tokens that `OR` and further conditions add. -/
def alternativeTokens (others : List Condition) : List Token :=
  others.flatMap fun other => .connective .or :: other.tokens

theorem cut_alternatives {first : Condition} {others : List Condition}
    (h : ∀ t ∈ first :: others, t.IsLegible) :
    Token.cut (alternatives (first :: others)).toList =
      first.tokens ++ alternativeTokens others := by
  induction others generalizing first with
  | nil =>
    have hcut := cut_toText first [] (h first (by simp)) Lexeme.separates_nil
    rw [Token.cut_nil] at hcut
    simpa [alternatives, alternativeTokens] using hcut
  | cons other others ih =>
    obtain ⟨hfirst, hothers⟩ := List.forall_mem_cons.mp h
    have htext : (alternatives (first :: other :: others)).toList = first.toText.toList ++
        ' ' :: (Connective.or.keyword.toList ++
          ' ' :: (alternatives (other :: others)).toList) := by
      simp [alternatives, Connective.keyword]
    rw [htext, cut_toText first _ hfirst Lexeme.separates_space, Token.cut_space,
      Token.cut_connective _ Lexeme.separates_space, Token.cut_space, ih hothers]
    rfl

/-- Further conditions are joined to what the tokens before them state. -/
theorem derives_alternatives {used : List Token} {first : Condition}
    (h : Derives .expression used first) (others : List Condition) :
    Derives .expression (used ++ alternativeTokens others)
      (joinAll first (others.map reread)) := by
  induction others generalizing used first with
  | nil => simpa [alternativeTokens, joinAll] using h
  | cons other others ih =>
    have hjoin := h.join .or (derives_tokens other)
    simpa [alternativeTokens, joinAll] using ih hjoin

/-- The texts of the conditions open no parentheses beyond the levels that they have when they are
joined. -/
theorem nesting_alternatives_lt {used : List Token} {first : Condition}
    (h : Derives .expression used first) (hlt : Token.nesting 0 used < first.depth)
    (others : List Condition) :
    Token.nesting 0 (used ++ alternativeTokens others) <
      (joinAll first (others.map reread)).depth := by
  induction others generalizing used first with
  | nil => simpa [alternativeTokens, joinAll] using hlt
  | cons other others ih =>
    have hother := nesting_tokens_lt other
    have hjoin : Token.nesting 0 (used ++ .connective .or :: other.tokens) <
        (join .or first other.reread).depth := by
      rw [nesting_join .or h, depth, depth_reread]
      omega
    simpa [alternativeTokens, joinAll] using ih (h.join .or (derives_tokens other)) hjoin

/-- Conditions that can be written are read as joined, within the limit on levels. -/
theorem parse_alternatives {first : Condition} {others : List Condition}
    (h : ∀ t ∈ first :: others, t.IsWritable) :
    parse (alternatives (first :: others)) =
      if (joinAll first others).depth ≤ maxDepth then .ok (joinAll first others)
      else .error .tooDeep := by
  obtain ⟨hfirst, hothers⟩ := List.forall_mem_cons.mp h
  have hreread : others.map reread = others :=
    (List.map_congr_left fun t ht => reread_of_isWritable (hothers t ht)).trans others.map_id
  have hcut := cut_alternatives fun t ht => (h t ht).isLegible
  have hderives := Derives.single (derives_tokens first)
  have hlt := nesting_tokens_lt first
  rw [reread_of_isWritable hfirst] at hderives
  have hnesting := nesting_alternatives_lt hderives hlt others
  have hread := ofTokens_of_derives (derives_alternatives hderives others)
  rw [hreread] at hnesting hread
  have hlimits : WithinLimits (first.tokens ++ alternativeTokens others) (joinAll first others) ↔
      (joinAll first others).depth ≤ maxDepth := by
    rw [WithinLimits]
    omega
  simp only [hlimits] at hread
  have hne : first.tokens ++ alternativeTokens others ≠ [] :=
    List.append_ne_nil_of_left_ne_nil first.tokens_ne_nil _
  rw [parse, Token.scan_eq_ok_iff.mpr ⟨hne, hcut⟩]
  exact hread

/-- Two or more conditions that can be written are read from their texts with `OR` between them
as what they are combined to. The reader finds them too deep exactly if they are too deep to be
combined. -/
theorem parse_alternatives_iff_combine {conditions : List Condition}
    (hcount : 2 ≤ conditions.length) (h : ∀ t ∈ conditions, t.IsWritable) :
    (∀ c, parse (alternatives conditions) = .ok c ↔ combine conditions = .ok c) ∧
    (parse (alternatives conditions) = .error .tooDeep ↔
      ∃ depth, combine conditions = .error (.tooDeep depth)) := by
  match conditions, hcount with
  | first :: second :: others, _ =>
    rw [parse_alternatives h, combine_cons (List.cons_ne_nil _ _)]
    split <;> simp

/-- The parentheses of a condition that is a join itself stay. -/
theorem parse_alternatives_iff_combine_join :
    let a := compare ⟨"a", .greater, .number (.ofInt 1)⟩
    let b := compare ⟨"b", .equal, .text "x"⟩
    alternatives [a, join .and a b, b] = "a > 1 OR (a > 1 AND b = 'x') OR b = 'x'" ∧
      parse "a > 1 OR (a > 1 AND b = 'x') OR b = 'x'" =
        .ok (join .or (join .or a (join .and a b)) b) := by
  intro a b
  have htext : alternatives [a, join .and a b, b] =
      "a > 1 OR (a > 1 AND b = 'x') OR b = 'x'" := by decide +kernel
  have ha : Comparison.IsWritable ⟨"a", .greater, .number (.ofInt 1)⟩ :=
    ⟨by decide +kernel, by decide +kernel, by decide +kernel, by decide +kernel⟩
  have hb : Comparison.IsWritable ⟨"b", .equal, .text "x"⟩ :=
    ⟨by decide +kernel, by decide +kernel, by decide +kernel, by decide +kernel⟩
  have hwritable : ∀ t ∈ [a, join .and a b, b], t.IsWritable := by
    intro t ht c hc
    simp only [List.mem_cons, List.not_mem_nil, or_false] at ht
    rcases ht with rfl | rfl | rfl <;> simp [a, b, comparisons] at hc
    · exact hc ▸ ha
    · rcases hc with rfl | rfl
      · exact ha
      · exact hb
    · exact hc ▸ hb
  have hread := ((parse_alternatives_iff_combine (by simp) hwritable).1
    (join .or (join .or a (join .and a b)) b)).mpr (by decide +kernel)
  rw [htext] at hread
  exact ⟨htext, hread⟩

end Condition

end Eligibility
