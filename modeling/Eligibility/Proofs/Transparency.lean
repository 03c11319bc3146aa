import Eligibility.ConditionCache.Call
import Mathlib.Data.List.Basic

/-!
# The cache does not show

A cache answers from what it keeps, or reads the text and keeps the condition. What it keeps is
told by the calls that were made (`IsRead`) : the texts that were read since it was cleared for
the last time, of those that state a condition, each with the condition that it states
(`Reflects`). Main statement :

* `answers_empty` : the calls of a run that starts with the empty cache are answered as if every
  text were read anew (`IsPlainAnswer`), and to read a text that states no condition leaves the
  cache as it is.
-/

namespace Eligibility

namespace ConditionCache

variable {cache : ConditionCache} {c : Call} {calls : List Call} {text : String}
  {condition : Condition}

/-! ## What calls read -/

/-- The text that a call reads. -/
def Call.text? : Call → Option String
  | .get text => some text
  | .check text _ => some text
  | _ => none

/-- A call has read the text since the cache was cleared, if it was, and the text states a
condition. -/
def IsRead (calls : List Call) (text : String) : Prop :=
  ∃ before c after, calls = before ++ c :: after ∧ c.text? = some text ∧ Call.clear ∉ after ∧
    ∃ condition, Condition.parse text = .ok condition

theorem isRead_nil : ¬IsRead [] text := by
  rintro ⟨before, c, after, h, -⟩
  simp at h

theorem isRead_concat : IsRead (calls ++ [c]) text ↔ c ≠ .clear ∧ IsRead calls text ∨
    c.text? = some text ∧ ∃ condition, Condition.parse text = .ok condition := by
  constructor
  · rintro ⟨before, d, after, heq, htext, hafter, hparse⟩
    rcases List.eq_nil_or_concat' after with rfl | ⟨after, last, rfl⟩
    · obtain ⟨rfl, hlast⟩ := List.append_inj' heq rfl
      cases hlast
      exact .inr ⟨htext, hparse⟩
    · rw [← List.cons_append, ← List.append_assoc] at heq
      obtain ⟨rfl, hlast⟩ := List.append_inj' heq rfl
      cases hlast
      rw [List.mem_append, List.mem_singleton, not_or] at hafter
      exact .inl ⟨Ne.symm hafter.2, before, d, after, rfl, htext, hafter.1, hparse⟩
  · rintro (⟨hclear, before, d, after, rfl, htext, hafter, hparse⟩ | ⟨htext, hparse⟩)
    · refine ⟨before, d, after ++ [c], by simp, htext, ?_, hparse⟩
      rw [List.mem_append, List.mem_singleton, not_or]
      exact ⟨hafter, Ne.symm hclear⟩
    · exact ⟨calls, c, [], rfl, htext, List.not_mem_nil, hparse⟩

/-! ## What the cache keeps -/

/-- The cache keeps the conditions of the texts that the calls have read. -/
def Reflects (cache : ConditionCache) (calls : List Call) : Prop :=
  ∀ text condition, cache.conditions.get? text = some condition ↔
    IsRead calls text ∧ Condition.parse text = .ok condition

theorem reflects_empty : empty.Reflects [] := by
  intro text condition
  rw [empty, TextMap.get?_empty]
  exact iff_of_false nofun fun h => isRead_nil h.1

/-- A text that states no condition changes nothing. -/
theorem get_snd_of_error {error : ParseError} (h : Condition.parse text = .error error) :
    (cache.get text).2 = cache := by
  rw [get, h]
  cases cache.conditions.get? text <;> rfl

namespace Reflects

theorem contains_iff (h : cache.Reflects calls) :
    cache.contains text = true ↔ IsRead calls text := by
  rw [contains, TextMap.contains_eq_isSome_get?, Option.isSome_iff_exists]
  constructor
  · rintro ⟨condition, hcondition⟩
    exact ((h text condition).mp hcondition).1
  · intro hread
    obtain ⟨_, _, _, -, -, -, condition, hparse⟩ := id hread
    exact ⟨condition, (h text condition).mpr ⟨hread, hparse⟩⟩

theorem get_fst (h : cache.Reflects calls) (text : String) :
    (cache.get text).1 = (Condition.parse text).mapError .parse := by
  rw [get]
  cases hkept : cache.conditions.get? text with
  | some condition =>
    rw [((h text condition).mp hkept).2]
    rfl
  | none => cases Condition.parse text <;> rfl

/-- After a text that states a condition has been read, its condition is kept. -/
theorem get?_get_snd (h : cache.Reflects calls) (hparse : Condition.parse text = .ok condition)
    (other : String) : (cache.get text).2.conditions.get? other =
      if text = other then some condition else cache.conditions.get? other := by
  rw [get]
  cases hkept : cache.conditions.get? text with
  | some kept =>
    obtain rfl := Except.ok.inj (((h text kept).mp hkept).2.symm.trans hparse)
    by_cases heq : text = other
    · rw [if_pos heq, ← heq]
      exact hkept
    · rw [if_neg heq]
  | none =>
    rw [hparse]
    exact TextMap.get?_insert ..

theorem get_snd (h : cache.Reflects calls) (hclear : c ≠ .clear) (htext : c.text? = some text) :
    (cache.get text).2.Reflects (calls ++ [c]) := by
  intro other found
  rw [isRead_concat, and_iff_right hclear, htext, Option.some.injEq]
  cases hparse : Condition.parse text with
  | error e =>
    rw [get_snd_of_error hparse, h other found, or_iff_left]
    rintro ⟨rfl, condition, hcondition⟩
    cases hparse.symm.trans hcondition
  | ok condition =>
    rw [h.get?_get_snd hparse]
    by_cases heq : text = other
    · subst heq
      simp [hparse]
    · simp [heq, h other found]

/-- A call that reads nothing and clears nothing changes nothing. -/
theorem concat (h : cache.Reflects calls) (hclear : c ≠ .clear) (htext : c.text? = none) :
    cache.Reflects (calls ++ [c]) := by
  intro other found
  rw [isRead_concat, and_iff_right hclear, htext, h other found]
  simp

theorem call (h : cache.Reflects calls) (c : Call) : (cache.call c).2.Reflects (calls ++ [c]) := by
  cases c with
  | get text => exact h.get_snd nofun rfl
  | check text record => exact h.get_snd nofun rfl
  | contains text => exact h.concat nofun rfl
  | size => exact h.concat nofun rfl
  | clear =>
    intro text condition
    simp [ConditionCache.call, empty, TextMap.get?_empty, isRead_concat, Call.text?]

theorem after (h : cache.Reflects calls) (later : List Call) :
    (cache.after later).Reflects (calls ++ later) := by
  induction later generalizing cache calls with
  | nil => rwa [List.append_nil]
  | cons c later ih =>
    have hlater := ih (h.call c)
    rwa [List.append_assoc] at hlater

end Reflects

/-! ## Answers -/

/-- The answer to a call after earlier ones that needs no cache : texts are read, and records
tested, anew. A text counts as kept if it was read, and their number is that of different texts. -/
def IsPlainAnswer (earlier : List Call) : Call → Answer → Prop
  | .get text, answer => answer = .read ((Condition.parse text).mapError .parse)
  | .check text record, answer =>
    answer = .tested (((Condition.parse text).mapError RuleError.parse).bind fun condition =>
      (condition.eval record).mapError .eval)
  | .contains text, answer => ∃ kept, answer = .told kept ∧ (kept = true ↔ IsRead earlier text)
  | .size, answer => ∃ texts : List String, texts.Nodup ∧
    (∀ text, text ∈ texts ↔ IsRead earlier text) ∧ answer = .counted texts.length
  | .clear, answer => answer = .cleared

theorem Reflects.isPlainAnswer (h : cache.Reflects calls) (c : Call) :
    IsPlainAnswer calls c (cache.call c).1 := by
  cases c with
  | get text => exact congrArg Answer.read (h.get_fst text)
  | check text record =>
    exact congrArg (fun result : Except RuleError Condition => Answer.tested
      (result.bind fun condition => (condition.eval record).mapError .eval)) (h.get_fst text)
  | contains text => exact ⟨_, rfl, h.contains_iff⟩
  | size =>
    obtain ⟨texts, hnodup, hmem, hlength⟩ := cache.conditions.exists_keys
    exact ⟨texts, hnodup, fun text => (hmem text).trans h.contains_iff,
      congrArg Answer.counted hlength.symm⟩
  | clear => rfl

/-- The answer to a call of a run is the one that it gets after the calls before it. -/
theorem getElem?_answers (cache : ConditionCache) (earlier : List Call) (c : Call)
    (later : List Call) : (cache.answers (earlier ++ c :: later))[earlier.length]? =
      some ((cache.after earlier).call c).1 := by
  induction earlier generalizing cache with
  | nil => rfl
  | cons d earlier ih => exact ih (cache.call d).2

/-- Every call of a run that starts with the empty cache has the answer that needs no cache :
texts are read as if for the first time, and records tested by what is read. A text is kept if
and only if it was read by a call since the cache was last cleared, whether or not that call could
test its record, and states a condition; the size is the number of different texts of that kind.
Reading a text that states no condition leaves the cache as it is. -/
theorem answers_empty (calls : List Call) :
    (∀ earlier c later, calls = earlier ++ c :: later → ∃ answer,
      (empty.answers calls)[earlier.length]? = some answer ∧ IsPlainAnswer earlier c answer) ∧
    (∀ c text error, c.text? = some text → Condition.parse text = .error error →
      ((empty.after calls).call c).2 = empty.after calls) := by
  constructor
  · rintro earlier c later rfl
    exact ⟨_, empty.getElem?_answers earlier c later,
      Reflects.isPlainAnswer (reflects_empty.after earlier) c⟩
  · intro c text error htext hparse
    cases c with
    | get text' =>
      cases htext
      exact get_snd_of_error hparse
    | check text' record =>
      cases htext
      exact get_snd_of_error hparse
    | contains | size | clear => cases htext

/-- A text is kept although no field of the record could be tested by it, and a text that is not
closed is not. -/
theorem answers_empty_kept :
    let calls : List Call := [.check "y > 1" .empty, .get "(y > 1", .contains "y > 1"]
    (empty.answers calls)[0]? = some (.tested (.error (.eval (.missingField "y")))) ∧
      (empty.answers calls)[2]? = some (.told true) ∧
      Condition.parse "(y > 1" = .error .unclosedParenthesis ∧
      ((empty.after calls).call (.get "(y > 1")).2 = empty.after calls := by
  intro calls
  have hparse : Condition.parse "y > 1" = .ok (.compare ⟨"y", .greater, .number (.ofInt 1)⟩) := by
    decide +kernel
  have hopen : Condition.parse "(y > 1" = .error .unclosedParenthesis := by decide +kernel
  obtain ⟨hanswers, hunread⟩ := answers_empty calls
  obtain ⟨_, htested, rfl⟩ := hanswers [] (.check "y > 1" .empty) _ rfl
  obtain ⟨_, hkept, kept, rfl, hiff⟩ :=
    hanswers [.check "y > 1" .empty, .get "(y > 1"] (.contains "y > 1") [] rfl
  have hread : IsRead [.check "y > 1" .empty, .get "(y > 1"] "y > 1" :=
    ⟨[], .check "y > 1" .empty, [.get "(y > 1"], rfl, rfl, by simp, _, hparse⟩
  rw [hparse] at htested
  rw [hiff.mpr hread] at hkept
  exact ⟨htested, hkept, hopen, hunread _ _ _ rfl hopen⟩

end ConditionCache

end Eligibility
