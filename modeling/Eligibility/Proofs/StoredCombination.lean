import Eligibility.Proofs.Combination
import Eligibility.Proofs.Index
import Mathlib.Order.Bounds.Basic

/-!
# Combining stored rules

To combine rules by their ids is to store one more rule, which holds the conditions of the others
joined by `OR`. It fails for an id that no rule has, then for too few ids, then for too many
levels, and for nothing else : the name is made up so that no rule has it. Main statements :

* `freeName_eq_first` : the name that is made up, and how many are tried before it;
* `combine_stored_iff` : when rules are combined, and what the book holds then (`HasGained`).
-/

namespace Eligibility

namespace RuleBook

variable {book book' : RuleBook} {clock : Clock} {id : Nat} {ids : List Nat} {now : Instant}
  {name description : String} {condition : Condition} {rule : Rule} {rules : List Rule}
  {error : RuleError}

/-! ## The name of a combined rule -/

/-- A name that is not taken stays as it is. To one that is taken the least number is appended, of
those from the next id on, that makes it free. To try them one after another, without a bound, ends
with that name and in no other way, after no more tries than there are names; so the number is at
most the last id and the number of names together. The name is free, and in a book that calls lead
to no rule has it, as the names that are taken are those of the rules. -/
theorem freeName_eq_first (book : RuleBook) (base : String) :
    (book.hasName base = false → book.freeName base = base) ∧
    (book.hasName base = true → ∃ n tries,
      IsLeast {n | book.lastId + 1 ≤ n ∧ book.hasName (numberedName base n) = false} n ∧
      book.freeName base = numberedName base n ∧
      n = book.lastId + tries ∧ tries ≤ book.ids.size ∧
      ∀ tries' name, book.Finds base (book.lastId + 1) tries' name ↔
        tries' = tries ∧ name = book.freeName base) ∧
    book.hasName (book.freeName base) = false ∧
    ∀ calls, book = empty.after calls →
      ∀ name, book.hasName name = true ↔ ∃ rule ∈ book.toList, rule.name = name := by
  refine ⟨fun hfree => if_neg (by simp [hfree]), fun htaken => ?_, book.hasName_freeName base,
    fun calls hbook name => hbook ▸ (isIndexed_empty.after calls).hasName_iff⟩
  obtain ⟨i, hi, hbefore, hfree⟩ := exists_firstFree htaken (book.lastId + 1)
  have hfinds := finds_of_firstFree hbefore hfree
  have hname : book.freeName base = numberedName base (book.lastId + 1 + i) := by
    rw [freeName, if_pos htaken, freeNumbered_of_finds hfinds (by omega)]
  refine ⟨book.lastId + 1 + i, i + 1, ⟨⟨by omega, hfree⟩, ?_⟩, hname, by omega, hi,
    fun tries' name => ⟨fun h => hname ▸ hfinds.unique h, ?_⟩⟩
  · -- a lesser number is one of those before, which are taken
    rintro n ⟨hn, hnfree⟩
    by_contra hlt
    have htaken := hbefore (n - (book.lastId + 1)) (by omega)
    rw [Nat.add_sub_cancel' hn, hnfree] at htaken
    cases htaken
  · rintro ⟨rfl, rfl⟩
    rwa [hname]

/-- The first of the numbers is taken by a rule whose name has been chosen so. -/
theorem freeName_eq_first_taken :
    let a : RuleDefinition := ⟨"Combined Rule 7", "", "x > 1"⟩
    let b : RuleDefinition := ⟨"Combined Rule 7-3", "", "x < 0"⟩
    let book := empty.after [.create ⟨0, 0⟩ a, .create ⟨0, 0⟩ b]
    book.hasName "Combined Rule 7" = true ∧
      book.freeName "Combined Rule 7" = "Combined Rule 7-4" ∧
      (∃ tries ≤ 2, book.Finds "Combined Rule 7" 3 tries "Combined Rule 7-4") ∧
      book.freeName "Combined Rule 8" = "Combined Rule 8" := by
  intro a b book
  have htaken : book.hasName "Combined Rule 7" = true := by decide +kernel
  have hname : book.freeName "Combined Rule 7" = "Combined Rule 7-4" := by decide +kernel
  obtain ⟨n, tries, -, -, -, htries, hfinds⟩ :=
    (freeName_eq_first book "Combined Rule 7").2.1 htaken
  have hsize : book.ids.size = 2 := by decide +kernel
  have hlast : book.lastId = 2 := by decide +kernel
  have hsearch := (hfinds tries _).mpr ⟨rfl, hname.symm⟩
  rw [hlast] at hsearch
  exact ⟨htaken, hname, ⟨tries, hsize ▸ htries, hsearch⟩,
    (freeName_eq_first book "Combined Rule 8").1 (by decide +kernel)⟩

/-! ## The rules with some ids -/

theorem mapM_find_eq_ok_iff : ids.mapM book.find = .ok rules ↔
    ids.map book.get? = rules.map some := by
  rw [mapM_eq_ok_iff]
  induction ids generalizing rules with
  | nil => cases rules <;> simp
  | cons id ids ih =>
    cases rules with
    | nil => simp
    | cons rule rules => simp only [List.map_cons, List.cons.injEq, find_eq_ok_iff, ih]

/-- The first id that no rule has is the one that is reported. -/
theorem mapM_find_eq_error_iff : ids.mapM book.find = .error error ↔ ∃ before id after,
    ids = before ++ id :: after ∧ (∀ i ∈ before, ∃ rule, book.get? i = some rule) ∧
      book.get? id = none ∧ error = .notFound id := by
  simp only [mapM_eq_error_iff, find_eq_ok_iff, find_eq_error_iff]

/-! ## One rule more -/

/-- The second book is the first one with one rule more, under the next id and under a name of its
own. Under every other id and every other name there is what there was. -/
structure HasGained (book : RuleBook) (rule : Rule) (book' : RuleBook) : Prop where
  id_eq : rule.id = book.lastId + 1
  lastId_eq : book'.lastId = rule.id
  get?_id : book.get? rule.id = none
  name_ne : ∀ other ∈ book.toList, other.name ≠ rule.name
  ids_get?_name : book.ids.get? rule.name = none
  get?_eq : ∀ id, book'.get? id = if rule.id = id then some rule else book.get? id
  ids_get?_eq : ∀ name, book'.ids.get? name =
    if rule.name = name then some rule.id else book.ids.get? name
  size_eq : book'.size = book.size + 1

theorem IsIndexed.name_ne_of_hasName (h : book.IsIndexed) (hfree : book.hasName name = false) :
    ∀ other ∈ book.toList, other.name ≠ name := by
  rw [← h.getByName?_eq_none_iff, getByName?, hasName_eq_false_iff.mp hfree]
  rfl

theorem size_add (hnone : book.get? (book.lastId + 1) = none) :
    (book.add now name description condition).2.size = book.size + 1 := by
  have hcontains : book.rules.contains (book.lastId + 1) = false := by
    rw [Std.ExtTreeMap.contains_eq_isSome_getElem?, ← get?, hnone]
    rfl
  rw [add, size, Std.ExtTreeMap.size_insert, hcontains]
  rfl

theorem IsIndexed.hasGained_add (h : book.IsIndexed) (hfree : book.hasName name = false) :
    HasGained book (book.add now name description condition).1
      (book.add now name description condition).2 where
  id_eq := rfl
  lastId_eq := rfl
  get?_id := h.get?_of_lastId_lt (Nat.lt_succ_self _)
  name_ne := h.name_ne_of_hasName hfree
  ids_get?_name := hasName_eq_false_iff.mp hfree
  get?_eq := get?_add
  ids_get?_eq _ := ids_get?_add
  size_eq := size_add (h.get?_of_lastId_lt (Nat.lt_succ_self _))

/-! ## Combining -/

/-- The conditions of rules joined by `OR` from the left. -/
def joinedCondition (first : Rule) (others : List Rule) : Condition :=
  .joinAll first.condition (others.map Rule.condition)

/-- Two or more rules are combined, unless that takes too many levels. -/
theorem combine_ok_iff : book.combine clock ids = (.ok rule, book') ↔ ∃ first others,
    ids.map book.get? = (first :: others).map some ∧ others ≠ [] ∧
      (joinedCondition first others).depth ≤ maxDepth ∧
      book.add clock.tick.now (book.freeName (combinedName clock.now)) combinedDescription
        (joinedCondition first others) = (rule, book') := by
  simp only [combine_eq_ok_iff, mapM_find_eq_ok_iff, Condition.combine_eq_ok_iff]
  constructor
  · rintro ⟨sources, _, hsources, ⟨_, _, heq, hne, rfl, hdepth⟩, hadd⟩
    obtain ⟨first, others, rfl, rfl, rfl⟩ := List.map_eq_cons_iff.mp heq
    exact ⟨first, others, hsources, by simpa using hne, hdepth, hadd⟩
  · rintro ⟨first, others, hsources, hne, hdepth, hadd⟩
    exact ⟨first :: others, _, hsources, ⟨_, _, rfl, by simpa using hne, rfl, hdepth⟩, hadd⟩

theorem combine_error_iff : (book.combine clock ids).1 = .error error ↔
    (∃ before id after, ids = before ++ id :: after ∧
      (∀ i ∈ before, ∃ rule, book.get? i = some rule) ∧ book.get? id = none ∧
        error = .notFound id) ∨
    (∃ sources : List Rule, ids.map book.get? = sources.map some ∧ sources.length < 2 ∧
      error = .combine (.tooFew sources.length)) ∨
    ∃ first others, ids.map book.get? = (first :: others).map some ∧ others ≠ [] ∧
      maxDepth < (joinedCondition first others).depth ∧
        error = .combine (.tooDeep (joinedCondition first others).depth) := by
  have hpair : (book.combine clock ids).1 = .error error ↔
      book.combine clock ids = (.error error, book) :=
    ⟨fun h => Prod.ext h (combine_eq_error_iff.mp (Prod.ext h rfl)).1, congrArg Prod.fst⟩
  rw [hpair, combine_eq_error_iff, mapM_find_eq_error_iff, and_iff_right rfl]
  refine or_congr_right ?_
  simp only [mapM_find_eq_ok_iff]
  constructor
  · rintro ⟨sources, e, hsources, hcombine, rfl⟩
    cases e with
    | tooFew found =>
      obtain ⟨rfl, hlt⟩ := Condition.combine_eq_tooFew_iff.mp hcombine
      rw [List.length_map] at hlt ⊢
      exact .inl ⟨sources, hsources, hlt, rfl⟩
    | tooDeep depth =>
      obtain ⟨_, _, heq, hne, rfl, hdepth⟩ := Condition.combine_eq_tooDeep_iff.mp hcombine
      obtain ⟨first, others, rfl, rfl, rfl⟩ := List.map_eq_cons_iff.mp heq
      exact .inr ⟨first, others, hsources, by simpa using hne, hdepth, rfl⟩
  · rintro (⟨sources, hsources, hlt, rfl⟩ | ⟨first, others, hsources, hne, hdepth, rfl⟩)
    · exact ⟨sources, _, hsources,
        Condition.combine_eq_tooFew_iff.mpr ⟨(List.length_map _).symm, hlt⟩, rfl⟩
    · exact ⟨first :: others, _, hsources,
        Condition.combine_eq_tooDeep_iff.mpr ⟨_, _, rfl, by simpa using hne, rfl, hdepth⟩, rfl⟩

theorem combine_ne_duplicateName : (book.combine clock ids).1 ≠ .error (.duplicateName name) := by
  rw [Ne, combine_error_iff]
  rintro (⟨_, _, _, -, -, -, h⟩ | ⟨_, -, -, h⟩ | ⟨_, _, -, -, -, h⟩) <;> cases h

/-- Whatever calls have been made on a new book and whatever the clock shows, rules are combined
unless one of the ids is that of no rule, of which the first is reported; or else there are fewer
than two; or else the conditions joined by `OR` in the order of the ids have too many levels. No
name stands in the way. The book then has one rule more, with the joined conditions, under the next
id and a name that no rule had, and all else is left as it was. -/
theorem combine_stored_iff (earlier : List Call) (clock : Clock) (ids : List Nat) :
    let book := empty.after earlier
    (∀ error, (book.combine clock ids).1 = .error error ↔
      (∃ before id after, ids = before ++ id :: after ∧
        (∀ i ∈ before, ∃ rule, book.get? i = some rule) ∧ book.get? id = none ∧
          error = .notFound id) ∨
      (∃ sources : List Rule, ids.map book.get? = sources.map some ∧ sources.length < 2 ∧
        error = .combine (.tooFew sources.length)) ∨
      ∃ first others, ids.map book.get? = (first :: others).map some ∧ others ≠ [] ∧
        maxDepth < (joinedCondition first others).depth ∧
          error = .combine (.tooDeep (joinedCondition first others).depth)) ∧
    (∀ name, (book.combine clock ids).1 ≠ .error (.duplicateName name)) ∧
    ((∃ rule, (book.combine clock ids).1 = .ok rule) ↔ ∃ first others,
      ids.map book.get? = (first :: others).map some ∧ others ≠ [] ∧
        (joinedCondition first others).depth ≤ maxDepth) ∧
    (∀ rule book', book.combine clock ids = (.ok rule, book') →
      HasGained book rule book' ∧ ∃ first others,
        ids.map book.get? = (first :: others).map some ∧
          rule.condition = joinedCondition first others) := by
  intro book
  refine ⟨fun _ => combine_error_iff, fun _ => combine_ne_duplicateName, ?_, ?_⟩
  · constructor
    · rintro ⟨rule, hrule⟩
      obtain ⟨first, others, hsources, hne, hdepth, -⟩ := combine_ok_iff.mp (Prod.ext hrule rfl)
      exact ⟨first, others, hsources, hne, hdepth⟩
    · rintro ⟨first, others, hsources, hne, hdepth⟩
      exact ⟨_, congrArg Prod.fst (combine_ok_iff.mpr ⟨first, others, hsources, hne, hdepth, rfl⟩)⟩
  · intro rule book' h
    obtain ⟨first, others, hsources, -, -, hadd⟩ := combine_ok_iff.mp h
    obtain ⟨rfl, rfl⟩ := Prod.ext_iff.mp hadd
    have hbook : book.IsIndexed := isIndexed_empty.after earlier
    exact ⟨hbook.hasGained_add (book.hasName_freeName _), first, others, hsources, rfl⟩

/-- Two rules have the names that a combination would get at that time, and the next one is free.
Of two ids without a rule the first one is reported. -/
theorem combine_stored_iff_taken :
    let a : RuleDefinition := ⟨"Combined Rule 7", "", "x > 1"⟩
    let b : RuleDefinition := ⟨"Combined Rule 7-3", "", "x < 0"⟩
    let clock : Clock := .stopped ⟨0, 7000000⟩
    let book := empty.after [.create ⟨0, 0⟩ a, .create ⟨0, 0⟩ b]
    (∃ rule, (book.combine clock [2, 1, 2]).1 = .ok rule ∧ rule.name = "Combined Rule 7-4" ∧
      rule.text = "((x < 0 OR x > 1) OR x < 0)" ∧
        HasGained book rule (book.combine clock [2, 1, 2]).2) ∧
      (book.combine clock [2, 5, 4]).1 = .error (.notFound 5) := by
  intro a b clock book
  have hname : (book.combine clock [2, 1, 2]).1.map (fun rule => (rule.name, rule.text)) =
      .ok ("Combined Rule 7-4", "((x < 0 OR x > 1) OR x < 0)") := by decide +kernel
  have hstored (ids : List Nat) :=
    combine_stored_iff [.create ⟨0, 0⟩ a, .create ⟨0, 0⟩ b] clock ids
  obtain ⟨rule, hrule, heq⟩ := map_eq_ok_iff.mp hname
  obtain ⟨hname, htext⟩ := Prod.mk.inj heq
  have hgained := ((hstored [2, 1, 2]).2.2.2 rule _ (Prod.ext hrule rfl)).1
  refine ⟨⟨rule, hrule, hname, htext, hgained⟩, ((hstored [2, 5, 4]).1 _).mpr (.inl ?_)⟩
  refine ⟨[2], 5, [4], rfl, fun i hi => ?_, by decide +kernel, rfl⟩
  obtain rfl := List.mem_singleton.mp hi
  exact Option.isSome_iff_exists.mp (by decide +kernel)

end RuleBook

end Eligibility
