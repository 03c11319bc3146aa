import Eligibility.Proofs.Effect

/-!
# Active and inactive rules

Whether a rule is active is shown where the rule is shown, and nothing else depends on it. So a book
in which all rules are marked as active (`RuleBook.activated`) answers every call as the book itself
does, aside from that mark (`call_activated`), and calls that mark rules leave it as it is
(`activated_setActive`). Main statement :

* `unaffected_by_setActive` : two runs of calls that differ only in the calls that mark rules
  answer all other calls alike and lead to the same book, aside from the marks.
-/

namespace Eligibility

/-- The rule marked as active. -/
def Rule.activated (rule : Rule) : Rule := { rule with isActive := true }

namespace RuleBook

variable {book : RuleBook} {id : Nat} {now : Instant} {name description base : String}
  {condition : Condition}

/-! ## Looking up among changed rules -/

theorem ext_get? {book book' : RuleBook} (hget : ∀ id, book.get? id = book'.get? id)
    (hids : book.ids = book'.ids) (hlast : book.lastId = book'.lastId) : book = book' := by
  cases book
  cases book'
  cases hids
  cases hlast
  exact congrArg (RuleBook.mk · _ _) (Std.ExtTreeMap.ext_getElem? hget)

section MapRules

variable (f : Rule → Rule) (book : RuleBook)

theorem get?_mapRules (id : Nat) : (book.mapRules f).get? id = (book.get? id).map f :=
  Std.ExtTreeMap.getElem?_map

theorem find_mapRules (id : Nat) : (book.mapRules f).find id = (book.find id).map f := by
  rw [find, find, get?_mapRules]
  cases book.get? id <;> rfl

theorem getByName?_mapRules (name : String) :
    (book.mapRules f).getByName? name = (book.getByName? name).map f := by
  rw [getByName?, getByName?, Option.map_bind]
  exact congrArg _ (funext fun id => book.get?_mapRules f id)

theorem toList_mapRules : (book.mapRules f).toList = book.toList.map f := by
  simp [toList, mapRules, Std.ExtTreeMap.toList_map]

theorem size_mapRules : (book.mapRules f).size = book.size :=
  Std.ExtTreeMap.size_map

theorem mapM_find_mapRules (ids : List Nat) :
    ids.mapM (book.mapRules f).find = (ids.mapM book.find).map (List.map f) := by
  induction ids with
  | nil => rfl
  | cons id ids ih =>
    rw [List.mapM_cons, List.mapM_cons, ih, find_mapRules]
    cases book.find id <;> cases ids.mapM book.find <;> rfl

theorem freeNumbered_mapRules (base : String) (tries n : Nat) :
    (book.mapRules f).freeNumbered base tries n = book.freeNumbered base tries n := by
  induction tries generalizing n with
  | zero => rfl
  | succ tries ih =>
    rw [freeNumbered, freeNumbered, ih]
    rfl

/-- Free names depend on the names alone. -/
theorem freeName_mapRules (base : String) :
    (book.mapRules f).freeName base = book.freeName base := by
  rw [freeName, freeName, freeNumbered_mapRules]
  rfl

end MapRules

/-! ## The book with all rules active -/

/-- The book with all rules marked as active. -/
def activated (book : RuleBook) : RuleBook := book.mapRules Rule.activated

theorem activated_add : (book.add now name description condition).2.activated =
    (book.activated.add now name description condition).2 :=
  mapRules_add Rule.activated

theorem addAll_activated (book : RuleBook) (clock : Clock)
    (entries : List (RuleDefinition × Condition)) : book.activated.addAll clock entries =
      ((book.addAll clock entries).1.map Rule.activated,
        (book.addAll clock entries).2.activated) := by
  induction entries generalizing book clock with
  | nil => rfl
  | cons entry entries ih =>
    obtain ⟨definition, condition⟩ := entry
    simp only [addAll, ← activated_add, ih]
    rfl

theorem eval_activated (book : RuleBook) (id : Nat) (record : Record) :
    book.activated.eval id record = book.eval id record := by
  rw [eval, eval, activated, find_mapRules]
  cases book.find id <;> rfl

/-- To mark a rule changes nothing aside from the mark. -/
theorem activated_setActive (book : RuleBook) (id : Nat) (active : Bool) :
    (book.setActive id active).2.activated = book.activated := by
  rcases h : book.setActive id active with ⟨error | rule, book'⟩
  · obtain ⟨-, rfl⟩ := setActive_eq_error_iff.mp h
    rfl
  · obtain ⟨former, hformer, rfl, rfl⟩ := setActive_eq_ok_iff.mp h
    refine ext_get? (fun id' => ?_) rfl rfl
    rw [activated, activated, get?_mapRules, get?_mapRules, get?_insert]
    by_cases hid : id = id'
    · rw [if_pos hid, ← hid, hformer]
      rfl
    · rw [if_neg hid]

theorem delete_activated (book : RuleBook) (id : Nat) : book.activated.delete id =
    ((book.delete id).1.map Rule.activated, (book.delete id).2.activated) := by
  rw [delete, delete, activated, find_mapRules]
  cases book.find id with
  | error e => rfl
  | ok rule =>
    refine Prod.ext rfl (ext_get? (fun id' => ?_) rfl rfl)
    simp only [activated, get?_mapRules, get?_erase, Except.map]
    split <;> rfl

theorem create_activated (book : RuleBook) (now : Instant) (definition : RuleDefinition) :
    book.activated.create now definition =
      ((book.create now definition).1.map Rule.activated,
        (book.create now definition).2.activated) := by
  have hname : book.activated.hasName definition.name = book.hasName definition.name := rfl
  rw [create, create, hname]
  cases Condition.parse definition.text with
  | error e => rfl
  | ok condition =>
    cases book.hasName definition.name with
    | true => rfl
    | false => exact Prod.ext rfl activated_add.symm

theorem load_activated (book : RuleBook) (clock : Clock) (set : RuleSet) :
    book.activated.load clock set =
      ((book.load clock set).1.map (List.map Rule.activated),
        (book.load clock set).2.activated) := by
  have hname : book.activated.hasName = book.hasName := rfl
  rw [load, load, hname]
  cases readAll [] set.rules with
  | error e => rfl
  | ok entries =>
    cases set.rules.find? (book.hasName ·.name) with
    | some definition => rfl
    | none =>
      simp only [addAll_activated]
      rfl

theorem combine_activated (book : RuleBook) (clock : Clock) (ids : List Nat) :
    book.activated.combine clock ids =
      ((book.combine clock ids).1.map Rule.activated,
        (book.combine clock ids).2.activated) := by
  rw [combine, combine, activated, mapM_find_mapRules]
  cases ids.mapM book.find with
  | error e => rfl
  | ok sources =>
    have hconditions : (sources.map Rule.activated).map Rule.condition =
        sources.map Rule.condition := List.map_map ..
    simp only [Except.map, hconditions]
    cases Condition.combine (sources.map Rule.condition) with
    | error e => rfl
    | ok condition =>
      simp only [freeName_mapRules]
      exact Prod.ext rfl activated_add.symm

/-! ## Calls -/

/-- Whether a call marks a rule. -/
def Call.isSetActive : Call → Bool
  | .setActive .. => true
  | _ => false

/-- The answer with all rules that it shows marked as active. -/
def Answer.activated : Answer → Answer
  | created rule => created rule.activated
  | loaded rules => loaded (rules.map Rule.activated)
  | found rule => found (rule.map Rule.activated)
  | listed rules => listed (rules.map Rule.activated)
  | counted count => counted count
  | deleted rule => deleted rule.activated
  | marked rule => marked rule.activated
  | tested result => tested result

/-- Every call that marks no rule does with the rules marked as active what it does as they are. -/
theorem call_activated (book : RuleBook) {c : Call} (h : c.isSetActive = false) :
    book.activated.call c =
      ((book.call c).1.map Answer.activated, (book.call c).2.activated) := by
  cases c with
  | setActive id active => cases h
  | create now definition =>
    simp only [call, create_activated]
    cases (book.create now definition).1 <;> rfl
  | load clock set =>
    simp only [call, load_activated]
    cases (book.load clock set).1 <;> rfl
  | get id =>
    simp only [call, activated, get?_mapRules]
    rfl
  | getByName name =>
    simp only [call, activated, getByName?_mapRules]
    rfl
  | list =>
    simp only [call, activated, toList_mapRules]
    rfl
  | count =>
    simp only [call, activated, size_mapRules]
    rfl
  | delete id =>
    simp only [call, delete_activated]
    cases (book.delete id).1 <;> rfl
  | eval id record =>
    simp only [call, eval_activated]
    cases book.eval id record <;> rfl
  | evalRequest request =>
    simp only [call, evalRequest, eval_activated]
    cases book.eval request.ruleId.toNat request.data <;> rfl
  | combine clock ids =>
    simp only [call, combine_activated]
    cases (book.combine clock ids).1 <;> rfl
  | combineRequest clock request =>
    simp only [call, combineRequest, combine_activated]
    cases (book.combine clock (request.ruleIds.map UInt64.toNat)).1 <;> rfl

/-! ## Runs -/

/-- What is answered to the calls that mark no rule, aside from the marks. -/
def otherAnswers (book : RuleBook) (calls : List Call) : List (Except RuleError Answer) :=
  ((calls.zip (book.answers calls)).filter (!·.1.isSetActive)).map (·.2.map Answer.activated)

/-- A run answers the calls that mark no rule, and leads to the book, as if it were made of them
alone and all rules had been active before, aside from the marks. -/
theorem run_activated (book : RuleBook) (calls : List Call) :
    book.activated.run (calls.filter (!·.isSetActive)) =
      (book.otherAnswers calls, (book.after calls).activated) := by
  induction calls generalizing book with
  | nil => rfl
  | cons c calls ih =>
    have hanswers : book.otherAnswers (c :: calls) =
        if c.isSetActive then (book.call c).2.otherAnswers calls
        else (book.call c).1.map Answer.activated :: (book.call c).2.otherAnswers calls := by
      cases h : c.isSetActive <;> simp [otherAnswers, h]
    cases h : c.isSetActive with
    | true =>
      obtain ⟨id, active, rfl⟩ : ∃ id active, c = .setActive id active := by
        cases c <;> cases h
        exact ⟨_, _, rfl⟩
      have hcall : (book.call (.setActive id active)).2.activated = book.activated :=
        book.activated_setActive id active
      rw [hanswers, if_pos h, List.filter_cons_of_neg (by simp [h]), ← hcall, ih]
      rfl
    | false =>
      rw [hanswers, h, List.filter_cons_of_pos (by simp [h]), run, book.call_activated h]
      simp only [ih]
      rfl

/-- If two runs differ only in the calls that mark rules, all other calls have the same answers in
both, and the books that they lead to are the same, aside from whether rules are active. To mark a
rule changes no test of a record, and no condition that rules are combined to. -/
theorem unaffected_by_setActive (book : RuleBook) {calls calls' : List Call}
    (h : calls.filter (!·.isSetActive) = calls'.filter (!·.isSetActive)) :
    book.otherAnswers calls = book.otherAnswers calls' ∧
    (book.after calls).activated = (book.after calls').activated ∧
    ∀ id active,
      (∀ id' record, (book.setActive id active).2.eval id' record = book.eval id' record) ∧
      ∀ clock ids, ((book.setActive id active).2.combine clock ids).1.map Rule.condition =
        (book.combine clock ids).1.map Rule.condition := by
  have hrun := (book.run_activated calls).symm.trans
    ((congrArg book.activated.run h).trans (book.run_activated calls'))
  obtain ⟨hanswers, hafter⟩ := Prod.ext_iff.mp hrun
  refine ⟨hanswers, hafter, fun id active => ⟨fun id' record => ?_, fun clock ids => ?_⟩⟩
  · rw [← eval_activated, activated_setActive, eval_activated]
  · have hcondition (book : RuleBook) : (book.activated.combine clock ids).1.map Rule.condition =
        (book.combine clock ids).1.map Rule.condition := by
      rw [combine_activated]
      cases (book.combine clock ids).1 <;> rfl
    rw [← hcondition, activated_setActive, hcondition]

/-- A rule is combined and marked in either order, and both runs list the same rules but for the
mark. -/
theorem unaffected_by_setActive_combine :
    let a : RuleDefinition := ⟨"a", "", "x > 1"⟩
    let clock : Clock := .stopped ⟨0, 0⟩
    let calls : List Call := [.create ⟨0, 0⟩ a, .setActive 1 false, .combine clock [1, 1], .list]
    let calls' : List Call := [.create ⟨0, 0⟩ a, .combine clock [1, 1], .list, .setActive 2 false]
    calls.filter (!·.isSetActive) = calls'.filter (!·.isSetActive) ∧
      empty.otherAnswers calls = empty.otherAnswers calls' ∧
      (empty.after calls).activated = (empty.after calls').activated ∧
      (empty.after calls).toList.map Rule.isActive = [false, true] ∧
      (empty.after calls').toList.map Rule.isActive = [true, false] := by
  intro a clock calls calls'
  have hcalls : calls.filter (!·.isSetActive) = calls'.filter (!·.isSetActive) := rfl
  obtain ⟨hanswers, hafter, -⟩ := unaffected_by_setActive empty hcalls
  exact ⟨hcalls, hanswers, hafter, by decide +kernel, by decide +kernel⟩

end RuleBook

end Eligibility
