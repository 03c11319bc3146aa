import Eligibility.Evaluation
import Eligibility.Proofs.CanonicalText
import Eligibility.Proofs.Outcome

/-!
# Evaluation from left to right

To test a record by a condition is to test it by all of the comparisons of the condition, from
left to right, and to join the results only if none of the tests has failed
(`Condition.eval_eq_mapM`). `Comparison.FailsWith` says which tests fail, and `Condition.Holds`
what the joined results mean. Main statement :

* `Condition.eval_eager` : a test fails exactly if a comparison anywhere in the condition fails,
  and then as the left-most one that does. Otherwise its result is whether the condition holds. No
  fields count but those of the comparisons.
-/

namespace Eligibility

variable {record record' : Record} {e : EvalError}

/-! ## Comparisons -/

namespace Comparison

variable {c : Comparison}

/-- The record does not have the field, or it does and the comparator is not known. -/
inductive FailsWith (record : Record) (c : Comparison) : EvalError → Prop where
  | missingField (hfield : record.get? c.field = none) :
      FailsWith record c (.missingField c.field)
  | unknownComparator {value : FieldValue} {symbol : String}
      (hfield : record.get? c.field = some value) (hsymbol : c.comparator = .unknown symbol) :
      FailsWith record c (.unknownComparator symbol)

/-- The comparator holds between the value of the field and the literal. -/
def Holds (record : Record) (c : Comparison) : Prop :=
  ∃ value, record.get? c.field = some value ∧ c.comparator.holds? value c.literal = some true

instance (record : Record) (c : Comparison) : Decidable (c.Holds record) :=
  decidable_of_iff _ Option.bind_eq_some_iff

theorem exists_failsWith_iff : (∃ e, c.FailsWith record e) ↔
    record.get? c.field = none ∨ ∃ symbol, c.comparator = .unknown symbol := by
  constructor
  · rintro ⟨_, hfield | ⟨-, hsymbol⟩⟩
    · exact .inl hfield
    · exact .inr ⟨_, hsymbol⟩
  · rintro (hfield | ⟨symbol, hsymbol⟩)
    · exact ⟨_, .missingField hfield⟩
    · cases hfield : record.get? c.field with
      | none => exact ⟨_, .missingField hfield⟩
      | some value => exact ⟨_, .unknownComparator hfield hsymbol⟩

theorem eval_eq_error_iff : c.eval record = .error e ↔ c.FailsWith record e := by
  obtain ⟨field, comparator, literal⟩ := c
  constructor
  · intro h
    rw [eval] at h
    split at h
    · rename_i hfield
      cases h
      exact .missingField hfield
    · rename_i value hfield
      cases comparator with
      | unknown symbol =>
        cases h
        exact .unknownComparator hfield rfl
      | _ => cases h
  · rintro (hfield | ⟨hfield, hsymbol⟩)
    · rw [eval, hfield]
    · obtain rfl : comparator = _ := hsymbol
      rw [eval, hfield]
      rfl

theorem eq_decide_of_eval {b : Bool} (h : c.eval record = .ok b) : b = decide (c.Holds record) := by
  rw [eval] at h
  split at h
  · cases h
  · rename_i value hfield
    split at h
    · cases h
    · rename_i result hresult
      cases h
      simp [Holds, hfield, hresult]

end Comparison

/-! ## Conditions -/

namespace Condition

/-- The condition holds if its comparisons do as its connectives say. -/
def Holds (record : Record) : Condition → Prop
  | compare c => c.Holds record
  | join .and left right => left.Holds record ∧ right.Holds record
  | join .or left right => left.Holds record ∨ right.Holds record

instance decidableHolds (record : Record) : ∀ t : Condition, Decidable (t.Holds record)
  | compare c => inferInstanceAs (Decidable (c.Holds record))
  | join .and left right =>
    have := decidableHolds record left
    have := decidableHolds record right
    inferInstanceAs (Decidable (left.Holds record ∧ right.Holds record))
  | join .or left right =>
    have := decidableHolds record left
    have := decidableHolds record right
    inferInstanceAs (Decidable (left.Holds record ∨ right.Holds record))

theorem decide_holds_join (connective : Connective) (left right : Condition) :
    decide ((join connective left right).Holds record) =
      connective.apply (decide (left.Holds record)) (decide (right.Holds record)) := by
  cases connective
  · exact Bool.decide_and ..
  · exact Bool.decide_or ..

/-- The results of the comparisons count only if there is one of each. -/
theorem eval_eq_mapM (record : Record) (t : Condition) :
    t.eval record =
      (t.comparisons.mapM (Comparison.eval record)).map fun _ => decide (t.Holds record) := by
  induction t with
  | compare c =>
    rw [eval, comparisons, List.mapM_cons, List.mapM_nil]
    cases hresult : c.eval record with
    | error e => rfl
    | ok b =>
      rw [Comparison.eq_decide_of_eval hresult]
      rfl
  | join connective left right ihl ihr =>
    rw [eval, comparisons, List.mapM_append, ihl, ihr, decide_holds_join]
    cases left.comparisons.mapM (Comparison.eval record) <;>
      cases right.comparisons.mapM (Comparison.eval record) <;> rfl

/-- A condition reads no fields but those of its comparisons. -/
theorem eval_congr {t : Condition}
    (h : ∀ c ∈ t.comparisons, record'.get? c.field = record.get? c.field) :
    t.eval record' = t.eval record := by
  induction t with
  | compare c => rw [eval, eval, Comparison.eval, Comparison.eval, h c (List.mem_singleton_self c)]
  | join connective left right ihl ihr =>
    obtain ⟨hl, hr⟩ := List.forall_mem_append.mp h
    rw [eval, eval, ihl hl, ihr hr]

/-- A test fails exactly if the record does not have the field of some comparison or a comparator
is not known, whatever else holds. It fails as the first comparison from the left that fails. If
none does, the result is whether the condition holds. Two records that have the same values in the
fields of the condition get the same answer. -/
theorem eval_eager (t : Condition) (record : Record) :
    ((∃ e, t.eval record = .error e) ↔ ∃ c ∈ t.comparisons,
      record.get? c.field = none ∨ ∃ symbol, c.comparator = .unknown symbol) ∧
    (∀ e, t.eval record = .error e ↔ ∃ before c after, t.comparisons = before ++ c :: after ∧
      (∀ d ∈ before, ¬∃ e, d.FailsWith record e) ∧ c.FailsWith record e) ∧
    (∀ b, t.eval record = .ok b ↔
      (∀ c ∈ t.comparisons, ¬∃ e, c.FailsWith record e) ∧ (b = true ↔ t.Holds record)) ∧
    (∀ record', (∀ c ∈ t.comparisons, record'.get? c.field = record.get? c.field) →
      t.eval record' = t.eval record) := by
  have htested (c : Comparison) : (∃ b, c.eval record = .ok b) ↔ ¬∃ e, c.FailsWith record e := by
    simp only [← Comparison.eval_eq_error_iff]
    cases c.eval record <;> simp
  have herror (e : EvalError) : t.eval record = .error e ↔ ∃ before c after,
      t.comparisons = before ++ c :: after ∧ (∀ d ∈ before, ¬∃ e, d.FailsWith record e) ∧
        c.FailsWith record e := by
    simp only [eval_eq_mapM, map_eq_error_iff, mapM_eq_error_iff, htested,
      Comparison.eval_eq_error_iff]
  have hok (b : Bool) : t.eval record = .ok b ↔
      (∀ c ∈ t.comparisons, ¬∃ e, c.FailsWith record e) ∧ (b = true ↔ t.Holds record) := by
    have hvalue : decide (t.Holds record) = b ↔ (b = true ↔ t.Holds record) := by
      cases b <;> simp
    simp only [eval_eq_mapM, map_eq_ok_iff, exists_and_right, exists_mapM_eq_ok_iff, htested,
      hvalue]
  refine ⟨?_, herror, hok, fun record' h => eval_congr h⟩
  simp only [← Comparison.exists_failsWith_iff]
  constructor
  · rintro ⟨e, he⟩
    obtain ⟨before, c, after, heq, -, hc⟩ := (herror e).mp he
    exact ⟨c, heq ▸ List.mem_append_cons_self, e, hc⟩
  · rintro ⟨c, hc, hfails⟩
    cases hresult : t.eval record with
    | error e => exact ⟨e, rfl⟩
    | ok b => exact absurd hfails (((hok b).mp hresult).1 c hc)

/-- The first comparison decides a disjunction, and the second one still fails. It is not the third
one that is reported, although its comparator is not known. -/
theorem eval_eager_missing :
    let t := join .or (compare ⟨"a", .greater, .number (.ofInt 1)⟩)
      (join .and (compare ⟨"b", .equal, .text "x"⟩) (compare ⟨"c", .unknown "==", .text "y"⟩))
    let record := Record.ofList [("a", .ofInt 2), ("c", .text "y")]
    t.eval record = .error (.missingField "b") := by
  intro t record
  have ha : record.get? "a" = some (.ofInt 2) := by decide +kernel
  have hb : record.get? "b" = none := by decide +kernel
  refine ((eval_eager t record).2.1 _).mpr ⟨[⟨"a", .greater, .number (.ofInt 1)⟩],
    ⟨"b", .equal, .text "x"⟩, [⟨"c", .unknown "==", .text "y"⟩], rfl, ?_, .missingField hb⟩
  rintro d hd ⟨e, hmissing | ⟨-, hunknown⟩⟩
  all_goals obtain rfl := List.mem_singleton.mp hd
  · cases hmissing.symm.trans ha
  · cases hunknown

end Condition

end Eligibility
