import Eligibility.Proofs.Loading

/-!
# What a call does to a book

A call fails and leaves the book as it was, or adds rules, or removes one, or marks one
(`effect_call`); to look something up is to add no rules. What holds of all books that calls lead
to is shown from these four cases. Main statement :

* `unchanged_of_failed` : a call that fails changes nothing. In particular a set is not stored in
  part, wherever in it a definition stands that cannot be stored.
-/

namespace Eligibility

namespace RuleBook

variable {book book' : RuleBook} {clock : Clock} {id : Nat} {active : Bool} {rule : Rule}
  {error : RuleError}

/-! ## The calls one by one -/

theorem find_eq_ok_iff : book.find id = .ok rule ↔ book.get? id = some rule := by
  rw [find]
  cases book.get? id <;> simp

theorem find_eq_error_iff : book.find id = .error error ↔
    book.get? id = none ∧ error = .notFound id := by
  rw [find]
  cases book.get? id <;> simp [eq_comm]

theorem eq_of_create_error {now : Instant} {definition : RuleDefinition}
    (h : book.create now definition = (.error error, book')) : book' = book := by
  rw [create] at h
  cases hparse : Condition.parse definition.text with
  | error e =>
    rw [hparse] at h
    exact (Prod.ext_iff.mp h).2.symm
  | ok condition =>
    rw [hparse] at h
    by_cases hname : book.hasName definition.name = true
    · simp only [if_pos hname] at h
      exact (Prod.ext_iff.mp h).2.symm
    · simp only [if_neg hname] at h
      cases (Prod.ext_iff.mp h).1

theorem delete_eq_ok_iff : book.delete id = (.ok rule, book') ↔
    book.get? id = some rule ∧
      book' = ⟨book.rules.erase id, book.ids.erase rule.name, book.lastId⟩ := by
  rw [delete, ← find_eq_ok_iff]
  cases book.find id with
  | error e => simp
  | ok found =>
    simp only [Prod.mk.injEq, Except.ok.injEq]
    constructor
    · rintro ⟨rfl, rfl⟩
      exact ⟨rfl, rfl⟩
    · rintro ⟨rfl, rfl⟩
      exact ⟨rfl, rfl⟩

theorem delete_eq_error_iff : book.delete id = (.error error, book') ↔
    book.find id = .error error ∧ book' = book := by
  rw [delete]
  cases book.find id <;> simp [eq_comm]

theorem setActive_eq_ok_iff : book.setActive id active = (.ok rule, book') ↔
    ∃ former, book.get? id = some former ∧ rule = { former with isActive := active } ∧
      book' = { book with rules := book.rules.insert id rule } := by
  simp only [setActive, ← find_eq_ok_iff]
  cases book.find id with
  | error e => simp
  | ok found =>
    simp only [Prod.mk.injEq, Except.ok.injEq, exists_eq_left']
    constructor
    · rintro ⟨rfl, rfl⟩
      exact ⟨rfl, rfl⟩
    · rintro ⟨rfl, rfl⟩
      exact ⟨rfl, rfl⟩

theorem setActive_eq_error_iff : book.setActive id active = (.error error, book') ↔
    book.find id = .error error ∧ book' = book := by
  rw [setActive]
  cases book.find id <;> simp [eq_comm]

theorem combine_eq_ok_iff {ids : List Nat} : book.combine clock ids = (.ok rule, book') ↔
    ∃ sources condition, ids.mapM book.find = .ok sources ∧
      Condition.combine (sources.map Rule.condition) = .ok condition ∧
      book.add clock.tick.now (book.freeName (combinedName clock.now)) combinedDescription
        condition = (rule, book') := by
  rw [combine]
  cases ids.mapM book.find with
  | error e => simp
  | ok sources => cases hcombine : Condition.combine (sources.map Rule.condition) <;>
      simp [hcombine, Prod.ext_iff]

theorem combine_eq_error_iff {ids : List Nat} : book.combine clock ids = (.error error, book') ↔
    book' = book ∧ (ids.mapM book.find = .error error ∨ ∃ sources e,
      ids.mapM book.find = .ok sources ∧
        Condition.combine (sources.map Rule.condition) = .error e ∧ error = .combine e) := by
  rw [combine]
  cases ids.mapM book.find with
  | error e => simp [and_comm, eq_comm]
  | ok sources => cases hcombine : Condition.combine (sources.map Rule.condition) <;>
      simp [hcombine, and_comm, eq_comm]

/-! ## The four effects -/

/-- What calls do : the call, its answer and the book that it leaves. -/
inductive Effect (book : RuleBook) : Call → Except RuleError Answer → RuleBook → Prop where
  | failed {c : Call} {error : RuleError} : Effect book c (.error error) book
  | extended {c : Call} {answer : Answer} {book' : RuleBook}
      (h : Extends book answer.added book') : Effect book c (.ok answer) book'
  | deleted {id : Nat} {rule : Rule} (h : book.get? id = some rule) :
      Effect book (.delete id) (.ok (.deleted rule))
        ⟨book.rules.erase id, book.ids.erase rule.name, book.lastId⟩
  | marked {id : Nat} {active : Bool} {rule : Rule} (h : book.get? id = some rule) :
      Effect book (.setActive id active) (.ok (.marked { rule with isActive := active }))
        { book with rules := book.rules.insert id { rule with isActive := active } }

theorem effect_of_combine (c : Call) (clock : Clock) (ids : List Nat) :
    Effect book c ((book.combine clock ids).1.map .created) (book.combine clock ids).2 := by
  rcases h : book.combine clock ids with ⟨error | rule, book'⟩
  · obtain ⟨rfl, -⟩ := combine_eq_error_iff.mp h
    exact .failed
  · obtain ⟨sources, condition, -, -, hadd⟩ := combine_eq_ok_iff.mp h
    obtain ⟨rfl, rfl⟩ := Prod.ext_iff.mp hadd
    exact .extended (.single (book.hasName_freeName _))

theorem effect_of_eval (c : Call) (id : Nat) (record : Record) :
    Effect book c ((book.eval id record).map .tested) book := by
  cases book.eval id record with
  | error e => exact .failed
  | ok result => exact .extended (.refl book)

theorem effect_call (book : RuleBook) (c : Call) :
    Effect book c (book.call c).1 (book.call c).2 := by
  cases c with
  | create now definition =>
    simp only [call]
    rcases h : book.create now definition with ⟨error | rule, book'⟩
    · obtain rfl := eq_of_create_error h
      exact .failed
    · obtain ⟨condition, -, hfree, hadd⟩ := create_eq_ok_iff.mp h
      obtain ⟨rfl, rfl⟩ := Prod.ext_iff.mp hadd
      exact .extended (.single hfree)
  | load clock set =>
    simp only [call]
    rcases h : book.load clock set with ⟨error | rules, book'⟩
    · obtain ⟨rfl, -⟩ := load_eq_error_iff.mp h
      exact .failed
    · obtain ⟨hstorable, entries, hentries, hadd⟩ := load_eq_ok_iff.mp h
      obtain ⟨rfl, rfl⟩ := Prod.ext_iff.mp hadd
      exact .extended (extends_addAll hstorable hentries)
  | get id => exact .extended (.refl book)
  | getByName name => exact .extended (.refl book)
  | list => exact .extended (.refl book)
  | count => exact .extended (.refl book)
  | delete id =>
    simp only [call]
    rcases h : book.delete id with ⟨error | rule, book'⟩
    · obtain ⟨-, rfl⟩ := delete_eq_error_iff.mp h
      exact .failed
    · obtain ⟨hrule, rfl⟩ := delete_eq_ok_iff.mp h
      exact .deleted hrule
  | setActive id active =>
    simp only [call]
    rcases h : book.setActive id active with ⟨error | rule, book'⟩
    · obtain ⟨-, rfl⟩ := setActive_eq_error_iff.mp h
      exact .failed
    · obtain ⟨former, hformer, rfl, rfl⟩ := setActive_eq_ok_iff.mp h
      exact .marked hformer
  | eval id record => exact effect_of_eval _ id record
  | evalRequest request => exact effect_of_eval _ request.ruleId.toNat request.data
  | combine clock ids => exact effect_of_combine _ clock ids
  | combineRequest clock request =>
    exact effect_of_combine _ clock (request.ruleIds.map UInt64.toNat)

/-! ## Looking up what is left -/

theorem get?_erase (book : RuleBook) (ids : TextMap Nat) (lastId id id' : Nat) :
    (mk (book.rules.erase id) ids lastId).get? id' =
      if id = id' then none else book.get? id' := by
  simp [get?, Std.ExtTreeMap.getElem?_erase]

theorem get?_insert (book : RuleBook) (id id' : Nat) (rule : Rule) :
    { book with rules := book.rules.insert id rule }.get? id' =
      if id = id' then some rule else book.get? id' := by
  simp [get?, Std.ExtTreeMap.getElem?_insert]

/-! ## Calls that fail -/

theorem eq_of_call_error {c : Call} (h : book.call c = (.error error, book')) : book' = book := by
  have heffect := effect_call book c
  rw [h] at heffect
  cases heffect
  rfl

theorem load_fails_iff {set : RuleSet} : (∃ error, book.load clock set = (.error error, book)) ↔
    ¬AreStorable (book.hasName · = true) set.rules := by
  have hload : (∃ rules, (book.load clock set).1 = .ok rules) ↔ _ := load_ok_iff_areStorable
  rw [← hload]
  rcases h : book.load clock set with ⟨error | rules, book'⟩
  · obtain ⟨rfl, -⟩ := load_eq_error_iff.mp h
    simp
  · simp

/-- A call that fails leaves the rules, the names and the last id as they were, whatever its
arguments are. To store a set fails wherever in it a definition has no readable text, an earlier
name of the set, or the name of a stored rule. -/
theorem unchanged_of_failed (book : RuleBook) :
    (∀ c error book', book.call c = (.error error, book') → book' = book) ∧
    (∀ clock set, (∃ error, book.load clock set = (.error error, book)) ↔
      ∃ earlier d later, set.rules = earlier ++ d :: later ∧
        ((∃ e, Condition.parse d.text = .error e) ∨ d.name ∈ earlier.map RuleDefinition.name ∨
          book.hasName d.name = true)) :=
  ⟨fun _ _ _ h => eq_of_call_error h, fun _ _ => load_fails_iff.trans not_areStorable_iff⟩

/-- The last of three definitions has the name of a stored rule. -/
theorem unchanged_of_failed_load :
    let book := (empty.create ⟨0, 0⟩ ⟨"a", "", "x > 1"⟩).2
    let set : RuleSet := ⟨[⟨"b", "", "x > 2"⟩, ⟨"c", "", "x > 3"⟩, ⟨"a", "", "x > 4"⟩]⟩
    let load := Call.load (.stopped ⟨0, 0⟩) set
    (book.call load).1 = .error (.duplicateName "a") ∧ (book.call load).2 = book := by
  intro book set load
  have hfailed : (book.call load).1 = .error (.duplicateName "a") := by decide +kernel
  exact ⟨hfailed, (unchanged_of_failed book).1 load _ _ (Prod.ext hfailed rfl)⟩

end RuleBook

end Eligibility
