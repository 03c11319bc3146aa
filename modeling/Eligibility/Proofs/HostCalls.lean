import Eligibility.Host.Session
import Eligibility.Proofs.Effect

/-!
# Calls of a host

A call of a host has a fault if its arguments cannot be converted, or if the book or the cache
refuses what they are converted to. In the first case nothing has been asked. In the second the
book is called once at most (`HostRequest.bookCall?`), and a call of a book that fails changes
nothing. Main statement :

* `HostSession.make_atomic` : a call that has a fault leaves the rules, the names and the last id as
  they were, at whatever stage the fault arises; so of any calls, those that have a fault might as
  well not have been made. A list of definitions is stored whole, in order and under ids that
  follow on one another, as the rule set is that its items are converted to.
-/

namespace Eligibility

variable {clock : Clock} {fault : HostFault} {session session' : HostSession}
  {request : HostRequest} {arguments : List (Option HostValue)} {value : HostValue}
  {items positional : List HostValue} {named : List (String × HostValue)}
  {definitions : List RuleDefinition} {rules : List Rule}

/-! ## What the book is asked -/

/-- The call of the book that a request makes. -/
def HostRequest.bookCall? (clock : Clock) : HostRequest → Option RuleBook.Call
  | create definition => some (.create clock.now definition)
  | load set => some (.load clock set)
  | list => some .list
  | evaluate id record => some (.eval id record)
  | check _ _ | clearCache => none
  | combine ids => some (.combine clock ids)
  | delete id => some (.delete id)
  | setActive id active => some (.setActive id active)

namespace HostSession

/-- Nothing but the call of the book changes the book. -/
theorem book_run (session : HostSession) (clock : Clock) (request : HostRequest) :
    (session.run clock request).2.book =
      (request.bookCall? clock).elim session.book fun call => (session.book.call call).2 := by
  cases request <;> rfl

theorem exists_error_of_answer {α : Type} {write : α → HostAnswer} {result : Except RuleError α}
    (h : answer write result = .error fault) : ∃ error, result = .error error := by
  cases result with
  | error error => exact ⟨error, rfl⟩
  | ok a => cases h

/-- A request to the book fails only if the book does. -/
theorem exists_error_of_run {call : RuleBook.Call} (hcall : request.bookCall? clock = some call)
    (h : (session.run clock request).1 = .error fault) :
    ∃ error, (session.book.call call).1 = .error error := by
  cases request with
  | list => cases h
  | check | clearCache => cases hcall
  | create | load | evaluate | combine | delete | setActive =>
    cases hcall
    simp only [RuleBook.call, map_eq_error_iff]
    exact exists_error_of_answer h

/-! ## Calls that have a fault -/

/-- The book that a call leaves depends on the book alone. -/
theorem book_make_congr (h : session.book = session'.book) (c : HostCall) :
    (session.make c).2.book = (session'.make c).2.book := by
  rw [make, make]
  cases c.request with
  | error fault => exact h
  | ok request => simp only [book_run, h]

theorem book_eq_of_make_error {c : HostCall} (h : session.make c = (.error fault, session')) :
    session'.book = session.book := by
  rw [make] at h
  cases hrequest : c.request with
  | error fault' =>
    simp only [hrequest] at h
    exact (congrArg (·.2.book) h).symm
  | ok request =>
    -- the fault of a request to the book is an error of the book, which has changed nothing then
    simp only [hrequest] at h
    have hbook := session.book_run c.clock request
    rw [h] at hbook
    cases hcall : request.bookCall? c.clock with
    | none => rwa [hcall] at hbook
    | some call =>
      obtain ⟨error, herror⟩ := exists_error_of_run hcall (congrArg Prod.fst h)
      rw [hcall] at hbook
      exact hbook.trans (RuleBook.eq_of_call_error (Prod.ext herror rfl))

/-- Calls that have a fault can be left out. The caches may differ then, which no book depends
on. -/
theorem book_after_returned (h : session'.book = session.book) (calls : List HostCall) :
    (session'.after (session.returned calls)).book = (session.after calls).book := by
  induction calls generalizing session session' with
  | nil => exact h
  | cons c calls ih =>
    rw [returned, after]
    rcases hmake : session.make c with ⟨fault | answer, next⟩
    · exact ih (h.trans (book_eq_of_make_error hmake).symm)
    · exact ih ((book_make_congr h c).trans (congrArg (·.2.book) hmake))

end HostSession

/-! ## Storing a list of definitions -/

namespace RuleBook

/-- A rule is stored as a definition has it, and is found under its id and its name. -/
structure IsStoredAs (book : RuleBook) (definition : RuleDefinition) (rule : Rule) : Prop where
  name_eq : rule.name = definition.name
  description_eq : rule.description = definition.description
  parse_eq : Condition.parse definition.text = .ok rule.condition
  get?_eq : book.get? rule.id = some rule
  getByName?_eq : book.getByName? rule.name = some rule

theorem isStoredAs_addAll {book stored : RuleBook} {entries : List (RuleDefinition × Condition)}
    (hread : List.Forall₂ IsReadAs definitions entries)
    (hfound : ∀ rule ∈ (book.addAll clock entries).1,
      stored.get? rule.id = some rule ∧ stored.getByName? rule.name = some rule) :
    List.Forall₂ stored.IsStoredAs definitions (book.addAll clock entries).1 := by
  induction hread generalizing book clock with
  | nil => exact .nil
  | @cons d entry definitions entries hentry _ ih =>
    obtain ⟨rfl, hparse⟩ := hentry
    obtain ⟨⟨hget, hgetByName⟩, hfound⟩ := List.forall_mem_cons.mp hfound
    exact .cons ⟨rfl, rfl, hparse, hget, hgetByName⟩ (ih hfound)

theorem isStoredAs_of_load {book book' : RuleBook} {set : RuleSet}
    (h : book.load clock set = (.ok rules, book')) :
    List.Forall₂ book'.IsStoredAs set.rules rules := by
  obtain ⟨hstorable, entries, hentries, hadd⟩ := load_eq_ok_iff.mp h
  obtain ⟨rfl, rfl⟩ := Prod.ext_iff.mp hadd
  have hextends : Extends book (book.addAll clock entries).1 (book.addAll clock entries).2 :=
    extends_addAll hstorable hentries
  exact isStoredAs_addAll hentries fun rule hrule => hextends.find_of_mem hrule

end RuleBook

theorem HostValue.toItems_eq_ok_iff : value.toItems = .ok items ↔ value = .list items := by
  cases value <;> simp [toItems]

namespace HostRequest

theorem ofArguments_loadRules_eq_ok_iff :
    ofArguments .loadRules arguments = .ok request ↔ ∃ items definitions,
      arguments = [some (.list items)] ∧ items.mapM HostValue.toDefinition = .ok definitions ∧
        request = .load ⟨definitions⟩ := by
  constructor
  · intro h
    -- anything but one argument that is given is refused
    rcases arguments with _ | ⟨_ | value, _ | _⟩ <;> try cases h
    simp only [ofArguments, bind_eq_ok_iff, HostValue.toItems_eq_ok_iff] at h
    obtain ⟨items, rfl, definitions, hdefinitions, hrequest⟩ := h
    exact ⟨items, definitions, rfl, hdefinitions, (Except.ok.inj hrequest).symm⟩
  · rintro ⟨items, definitions, rfl, hdefinitions, rfl⟩
    simp only [ofArguments, bind_eq_ok_iff, HostValue.toItems_eq_ok_iff]
    exact ⟨items, rfl, definitions, hdefinitions, rfl⟩

theorem ofCall_loadRules_eq_ok_iff :
    ofCall .loadRules positional named = .ok request ↔ ∃ items definitions,
      bindArguments HostFunction.loadRules.parameters positional named =
          .ok [some (.list items)] ∧
        items.mapM HostValue.toDefinition = .ok definitions ∧ request = .load ⟨definitions⟩ := by
  simp only [ofCall, bind_eq_ok_iff, ofArguments_loadRules_eq_ok_iff]
  constructor
  · rintro ⟨_, hbind, items, definitions, rfl, hdefinitions, rfl⟩
    exact ⟨items, definitions, hbind, hdefinitions, rfl⟩
  · rintro ⟨items, definitions, hbind, hdefinitions, rfl⟩
    exact ⟨_, hbind, items, definitions, rfl, hdefinitions, rfl⟩

end HostRequest

namespace HostSession

theorem make_eq_ok_iff {c : HostCall} {given : HostAnswer} :
    session.make c = (.ok given, session') ↔
      ∃ request, c.request = .ok request ∧ session.run c.clock request = (.ok given, session') := by
  rw [make]
  cases c.request <;> simp

theorem run_load_eq_ok_iff {set : RuleSet} {given : HostAnswer} :
    session.run clock (.load set) = (.ok given, session') ↔ ∃ rules,
      session.book.load clock set = (.ok rules, session'.book) ∧
        session'.cache = session.cache ∧ given = .ids (rules.map Rule.id) := by
  rw [run]
  rcases session.book.load clock set with ⟨error | rules, book⟩
  · simp [answer, Except.map, Except.mapError]
  · constructor
    · rintro ⟨⟩
      exact ⟨rules, rfl, rfl, rfl⟩
    · rintro ⟨_, ⟨⟩, hcache, rfl⟩
      rw [← hcache]
      rfl

theorem make_loadRules_eq_ok_iff {given : HostAnswer} :
    session.make (.ofValues clock .loadRules positional named) = (.ok given, session') ↔
      ∃ items definitions rules,
        bindArguments HostFunction.loadRules.parameters positional named =
          .ok [some (.list items)] ∧
        items.mapM HostValue.toDefinition = .ok definitions ∧
        session.book.load clock ⟨definitions⟩ = (.ok rules, session'.book) ∧
        session'.cache = session.cache ∧ given = .ids (rules.map Rule.id) := by
  simp only [make_eq_ok_iff, HostCall.ofValues, HostRequest.ofCall_loadRules_eq_ok_iff]
  constructor
  · rintro ⟨_, ⟨items, definitions, hbind, hdefinitions, rfl⟩, hrun⟩
    obtain ⟨rules, hload⟩ := run_load_eq_ok_iff.mp hrun
    exact ⟨items, definitions, rules, hbind, hdefinitions, hload⟩
  · rintro ⟨items, definitions, rules, hbind, hdefinitions, hload⟩
    exact ⟨_, ⟨items, definitions, hbind, hdefinitions, rfl⟩, run_load_eq_ok_iff.mpr ⟨rules, hload⟩⟩

/-- A call that has a fault leaves the rules, the names and the last id as they were, whatever its
arguments are and wherever the fault arises; so calls that have a fault can be left out of any
others. To store a list of definitions is to convert all of its items and to store the rule set of
what they are converted to. Each definition is then stored in its place in the list, under the next
id. -/
theorem make_atomic (session : HostSession) :
    (∀ c fault session', session.make c = (.error fault, session') →
      session'.book = session.book) ∧
    (∀ calls, (session.after (session.returned calls)).book = (session.after calls).book) ∧
    (∀ clock positional named given session',
      session.make (.ofValues clock .loadRules positional named) = (.ok given, session') ↔
        ∃ items definitions rules,
          bindArguments HostFunction.loadRules.parameters positional named =
            .ok [some (.list items)] ∧
          items.mapM HostValue.toDefinition = .ok definitions ∧
          session.book.load clock ⟨definitions⟩ = (.ok rules, session'.book) ∧
          session'.cache = session.cache ∧ given = .ids (rules.map Rule.id)) ∧
    (∀ clock definitions rules book', session.book.load clock ⟨definitions⟩ = (.ok rules, book') →
      rules.map Rule.id = List.range' (session.book.lastId + 1) definitions.length ∧
        List.Forall₂ book'.IsStoredAs definitions rules) :=
  ⟨fun _ _ _ => book_eq_of_make_error, book_after_returned rfl,
    fun _ _ _ _ _ => make_loadRules_eq_ok_iff,
    fun _ _ _ _ h => ⟨RuleBook.ids_of_load h, RuleBook.isStoredAs_of_load h⟩⟩

/-- Beside a stored rule, a dictionary and an object are stored under the next two ids. With a
third item that has no text they are not. -/
theorem make_atomic_loadRules :
    let clock := Clock.stopped ⟨0, 0⟩
    let session := (empty.make (.ofValues clock .createRule [.text "a", .text "x > 1"] [])).2
    let items : List HostValue :=
      [.dict [(.text "name", .text "b"), (.text "rule_string", .text "x > 2")],
        .object [("name", .text "c"), ("ruleString", .text "x > 3"), ("description", .none)]]
    let unreadable := items ++ [.object [("name", .text "d")]]
    let load (items : List HostValue) := HostCall.ofValues clock .loadRules [.list items] []
    (session.make (load items)).1 = .ok (.ids [2, 3]) ∧
      (∃ definitions rules, items.mapM HostValue.toDefinition = .ok definitions ∧
        List.Forall₂ (session.make (load items)).2.book.IsStoredAs definitions rules) ∧
      (session.make (load unreadable)).1 = .error (.missingPart "ruleString") ∧
      (session.make (load unreadable)).2.book = session.book := by
  intro clock session items unreadable load
  have hreturned : (session.make (load items)).1 = .ok (.ids [2, 3]) := by decide +kernel
  have hfailed : (session.make (load unreadable)).1 = .error (.missingPart "ruleString") := by
    decide +kernel
  obtain ⟨hatomic, -, hload, hstored⟩ := make_atomic session
  obtain ⟨_, definitions, rules, hbind, hdefinitions, hbook, -⟩ :=
    (hload clock [.list items] [] _ _).mp (Prod.ext hreturned rfl)
  cases hbind
  exact ⟨hreturned, ⟨definitions, rules, hdefinitions, (hstored _ _ _ _ hbook).2⟩, hfailed,
    hatomic _ _ _ (Prod.ext hfailed rfl)⟩

end HostSession

end Eligibility
