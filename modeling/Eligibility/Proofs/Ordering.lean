import Eligibility.Evaluation

/-!
# The order of values and literals

A value equals a literal exactly if neither is the greater (`FieldValue.equals_eq`), so that one
order answers all six comparators. Only two numbers other than NaN and two texts are in order
(`FieldValue.isComparable_iff`). Two literals in order are places in a transitive order, in which a
value has a place too or else is in order with neither of them (`Literal.IsAtMost.exists_places`).
Main statement :

* `Condition.comparisons_consistent` : how the answers to the comparisons of a value with a literal
  depend on one another, and on the answers for a literal that is at most as great.
-/

namespace Eligibility

/-! ## Numbers -/

namespace Binary64

theorem exists_position?_iff {x : Binary64} : (∃ i, x.position? = some i) ↔ x ≠ nan := by
  cases x with
  | nan => simp [position?]
  | signed negative m => cases negative <;> simp [position?]

theorem compare?_eq_some_iff {x y : Binary64} {o : Ordering} : x.compare? y = some o ↔
    ∃ i j, x.position? = some i ∧ y.position? = some j ∧ compare i j = o := by
  unfold compare?
  cases x.position? <;> cases y.position? <;> simp

/-- A number is in order with another if it has a position at all. -/
theorem compare?_eq_map (x : Binary64) {y : Binary64} {j : Int} (h : y.position? = some j) :
    x.compare? y = x.position?.map (compare · j) := by
  unfold compare?
  cases x.position? <;> simp [h]

end Binary64

/-! ## Values -/

namespace FieldValue

variable {value : FieldValue} {literal : Literal}

/-- Two numbers, neither of which is NaN, or two texts. -/
inductive IsComparable : FieldValue → Literal → Prop
  | number {x y : Binary64} : x ≠ .nan → y ≠ .nan → IsComparable (.number x) (.number y)
  | text (s t : String) : IsComparable (.text s) (.text t)

theorem isComparable_iff : value.IsComparable literal ↔ ∃ o, value.compare? literal = some o := by
  constructor
  · intro h
    cases h with
    | number hx hy =>
      obtain ⟨i, hi⟩ := Binary64.exists_position?_iff.mpr hx
      obtain ⟨j, hj⟩ := Binary64.exists_position?_iff.mpr hy
      exact ⟨_, Binary64.compare?_eq_some_iff.mpr ⟨i, j, hi, hj, rfl⟩⟩
    | text s t => exact ⟨_, rfl⟩
  · rintro ⟨o, h⟩
    cases value with
    | truth b => cases h
    | number x =>
      cases literal with
      | number y =>
        obtain ⟨i, j, hi, hj, -⟩ := Binary64.compare?_eq_some_iff.mp h
        exact .number (Binary64.exists_position?_iff.mp ⟨i, hi⟩)
          (Binary64.exists_position?_iff.mp ⟨j, hj⟩)
      | text t => cases h
    | text s =>
      cases literal with
      | number y => cases h
      | text t => exact .text s t

/-- Equality and the order agree. -/
theorem equals_eq (value : FieldValue) (literal : Literal) :
    value.equals literal = (value.compare? literal == some .eq) := by
  cases value with
  | truth b => rfl
  | number x => cases literal <;> rfl
  | text s =>
    cases literal with
    | number y => rfl
    | text t =>
      rw [Bool.eq_iff_iff]
      simp [equals, compare?]

end FieldValue

/-! ## Thresholds -/

namespace Literal

/-- A literal as the value of a field. -/
def toValue : Literal → FieldValue
  | number x => .number x
  | text s => .text s

/-- The literals are of one type, and in the order of values the first is not the greater. -/
def IsAtMost (literal' literal : Literal) : Prop :=
  (literal'.toValue.compare? literal).any Ordering.isLE = true

/-- Two literals in order are places in one order. A value has a place there, or it is in order
with neither. -/
theorem IsAtMost.exists_places {literal literal' : Literal} (h : literal'.IsAtMost literal) :
    ∃ (α : Type) (_ : Ord α) (_ : Std.TransOrd α) (a a' : α), (compare a' a).isLE = true ∧
      ∀ value : FieldValue, ∃ place : Option α,
        value.compare? literal = place.map (compare · a) ∧
          value.compare? literal' = place.map (compare · a') := by
  obtain ⟨o, ho, hle⟩ := (Option.any_eq_true _ _).mp h
  cases literal' with
  | number y' =>
    cases literal with
    | number y =>
      obtain ⟨j', j, hj', hj, rfl⟩ := Binary64.compare?_eq_some_iff.mp ho
      refine ⟨Int, inferInstance, inferInstance, j, j', hle, fun value => ?_⟩
      cases value with
      | number x => exact ⟨x.position?, x.compare?_eq_map hj, x.compare?_eq_map hj'⟩
      | truth | text => exact ⟨none, rfl, rfl⟩
    | text t => cases ho
  | text t' =>
    cases literal with
    | number y => cases ho
    | text t =>
      obtain rfl := Option.some.inj ho
      refine ⟨String, inferInstance, inferInstance, t, t', hle, fun value => ?_⟩
      cases value with
      | text s => exact ⟨some s, rfl, rfl⟩
      | truth | number => exact ⟨none, rfl, rfl⟩

/-- Against the lesser of two literals a value does not come out smaller. -/
theorem IsAtMost.compare?_cases {literal literal' : Literal} (h : literal'.IsAtMost literal)
    (value : FieldValue) :
    value.compare? literal = none ∧ value.compare? literal' = none ∨
      ∃ o o', value.compare? literal = some o ∧ value.compare? literal' = some o' ∧
        (o.isGE = true → o'.isGE = true) ∧ (o = .gt → o' = .gt) := by
  obtain ⟨α, _, _, a, a', hle, hplace⟩ := h.exists_places
  obtain ⟨place, heq, heq'⟩ := hplace value
  cases place with
  | none => exact .inl ⟨heq, heq'⟩
  | some b =>
    have hge : (compare a a').isGE = true := Std.OrientedCmp.isGE_iff_isLE.mpr hle
    exact .inr ⟨_, _, heq, heq', fun hb => Std.TransCmp.isGE_trans hb hge,
      fun hb => Std.TransCmp.gt_of_gt_of_isGE hb hge⟩

end Literal

/-! ## Comparators -/

namespace Condition

variable {record : Record} {field : String} {value : FieldValue}

theorem eval_compare_eq_ok_iff (hfield : record.get? field = some value) {comparator : Comparator}
    {literal : Literal} {b : Bool} :
    (compare ⟨field, comparator, literal⟩).eval record = .ok b ↔
      comparator.holds? value literal = some b := by
  simp only [eval, Comparison.eval, hfield]
  cases comparator.holds? value literal <;> simp

/-- The six known comparators never fail where there is a value. Then `>=` is `>` or `=`, `<=` is
`<` or `=`, and `!=` is not `=`. Of `<`, `=` and `>` at most one holds, and one does exactly if the
value and the literal are two numbers other than NaN or two texts. If `>` or `>=` holds for a
literal, so it does for all literals up to that, and if `<` or `<=` does, so it does for all from
that on. -/
theorem comparisons_consistent (hfield : record.get? field = some value) :
    let holds (comparator : Comparator) (literal : Literal) : Prop :=
      (compare ⟨field, comparator, literal⟩).eval record = .ok true
    (∀ literal comparator, (∀ symbol, comparator ≠ .unknown symbol) →
      ∃ b, (compare ⟨field, comparator, literal⟩).eval record = .ok b) ∧
    (∀ literal,
      (holds .greaterEqual literal ↔ holds .greater literal ∨ holds .equal literal) ∧
      (holds .lessEqual literal ↔ holds .less literal ∨ holds .equal literal) ∧
      (holds .notEqual literal ↔ ¬holds .equal literal) ∧
      ¬(holds .less literal ∧ holds .equal literal) ∧
      ¬(holds .less literal ∧ holds .greater literal) ∧
      ¬(holds .equal literal ∧ holds .greater literal) ∧
      (holds .less literal ∨ holds .equal literal ∨ holds .greater literal ↔
        value.IsComparable literal)) ∧
    ∀ literal literal', literal'.IsAtMost literal →
      (holds .greater literal → holds .greater literal') ∧
      (holds .greaterEqual literal → holds .greaterEqual literal') ∧
      (holds .less literal' → holds .less literal) ∧
      (holds .lessEqual literal' → holds .lessEqual literal) := by
  intro holds
  simp only [holds, eval_compare_eq_ok_iff hfield]
  refine ⟨fun literal comparator hknown => ?_, fun literal => ?_, fun literal literal' h => ?_⟩
  · cases comparator with
    | unknown symbol => exact absurd rfl (hknown symbol)
    | _ => exact ⟨_, rfl⟩
  · -- all six depend on the order alone
    simp only [Comparator.holds?, FieldValue.equals_eq, FieldValue.isComparable_iff]
    cases value.compare? literal with
    | none => simp
    | some o => cases o <;> simp
  · simp only [Comparator.holds?]
    rcases h.compare?_cases value with ⟨hnone, hnone'⟩ | ⟨o, o', ho, ho', hge, hgt⟩
    · simp [hnone, hnone']
    · rw [ho, ho']
      cases o <;> cases o' <;> simp_all

/-- The two zeros are equal, so that what is at most the one is at most all that the other is at
most. A truth value is in no order with a literal, and differs from it. -/
theorem comparisons_consistent_zeros :
    let record := Record.ofList [("balance", .number (.signed true .zero)), ("open", .truth true)]
    let zero : Literal := .number (.signed false .zero)
    let five : Literal := .number (.ofInt 5)
    zero.IsAtMost five ∧
    (compare ⟨"balance", .equal, zero⟩).eval record = .ok true ∧
    (compare ⟨"balance", .less, zero⟩).eval record ≠ .ok true ∧
    (compare ⟨"balance", .lessEqual, five⟩).eval record = .ok true ∧
    (compare ⟨"open", .equal, zero⟩).eval record ≠ .ok true ∧
    (compare ⟨"open", .notEqual, zero⟩).eval record = .ok true := by
  intro record zero five
  have hbalance : record.get? "balance" = some (.number (.signed true .zero)) := by decide +kernel
  have hopen : record.get? "open" = some (.truth true) := by decide +kernel
  have horder : zero.IsAtMost five := by
    unfold Literal.IsAtMost
    decide +kernel
  have hequal : (compare ⟨"balance", .equal, zero⟩).eval record = .ok true :=
    (eval_compare_eq_ok_iff hbalance).mpr (by decide +kernel)
  obtain ⟨-, hanswers, hthreshold⟩ := comparisons_consistent hbalance
  obtain ⟨-, hlessEqual, -, hexclusive, -⟩ := hanswers zero
  obtain ⟨-, -, hunequal, -, -, -, hcomparable⟩ := (comparisons_consistent hopen).2.1 zero
  have hopen_ne : (compare ⟨"open", .equal, zero⟩).eval record ≠ .ok true :=
    fun h => nomatch hcomparable.mp (.inr (.inl h))
  exact ⟨horder, hequal, fun hless => hexclusive ⟨hless, hequal⟩,
    (hthreshold five zero horder).2.2.2 (hlessEqual.mpr (.inr hequal)), hopen_ne,
    hunequal.mpr hopen_ne⟩

end Condition

end Eligibility
