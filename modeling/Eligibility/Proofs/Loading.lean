import Eligibility.Proofs.Extension
import Eligibility.Proofs.Outcome
import Eligibility.RuleBook.Call
import Mathlib.Data.List.Forall2
import Mathlib.Data.Set.List

/-!
# Storing rules together

`RuleBook.load` reads all definitions of a set and compares all names before it adds the first
rule. It succeeds for the sets whose definitions are storable (`AreStorable`) : no name is taken
or given twice, and every text states a condition. Main statement :

* `load_iff_create_each` : storing a set is creating its rules one after the other. Either
  succeeds if the other does, and then they give the same rules and leave the same book, but for
  the times of creation. Where storing a set fails, the first definition that has an earlier name
  of the set or no readable text is the reason, and a name that a stored rule has only if there is
  none.
-/

namespace Eligibility

/-- The rule without its time of creation. -/
def Rule.undated (rule : Rule) : Rule := { rule with createdAt := ⟨0, 0⟩ }

namespace RuleBook

variable {book book' : RuleBook} {clock : Clock} {definition : RuleDefinition}
  {definitions : List RuleDefinition} {entries : List (RuleDefinition × Condition)}
  {taken : String → Prop} {rules : List Rule} {error : RuleError}

/-! ## Definitions that can be stored -/

/-- Definitions that can be stored together where some names are taken. -/
structure AreStorable (taken : String → Prop) (definitions : List RuleDefinition) : Prop where
  names_nodup : (definitions.map RuleDefinition.name).Nodup
  not_taken : ∀ d ∈ definitions, ¬taken d.name
  parse_ok : ∀ d ∈ definitions, ∃ condition, Condition.parse d.text = .ok condition

theorem areStorable_nil : AreStorable taken [] :=
  ⟨List.nodup_nil, by simp, by simp⟩

/-- The first definition takes its name from those after it. -/
theorem areStorable_cons : AreStorable taken (definition :: definitions) ↔
    (∃ condition, Condition.parse definition.text = .ok condition) ∧ ¬taken definition.name ∧
      AreStorable (fun name => name = definition.name ∨ taken name) definitions := by
  constructor
  · rintro ⟨hnodup, htaken, hparse⟩
    obtain ⟨hname, hnodup⟩ := List.nodup_cons.mp hnodup
    obtain ⟨hfree, htaken⟩ := List.forall_mem_cons.mp htaken
    obtain ⟨hread, hparse⟩ := List.forall_mem_cons.mp hparse
    refine ⟨hread, hfree, hnodup, fun d hd => ?_, hparse⟩
    rintro (heq | h)
    · exact hname (heq ▸ List.mem_map_of_mem hd)
    · exact htaken d hd h
  · rintro ⟨hread, hfree, hnodup, htaken, hparse⟩
    refine ⟨List.nodup_cons.mpr ⟨fun hmem => ?_, hnodup⟩,
      List.forall_mem_cons.mpr ⟨hfree, fun d hd h => htaken d hd (.inr h)⟩,
      List.forall_mem_cons.mpr ⟨hread, hparse⟩⟩
    obtain ⟨d, hd, heq⟩ := List.mem_map.mp hmem
    exact htaken d hd (.inl heq)

theorem AreStorable.mono {taken' : String → Prop} (h : AreStorable taken definitions)
    (himp : ∀ name, taken' name → taken name) : AreStorable taken' definitions :=
  ⟨h.names_nodup, fun d hd htaken => h.not_taken d hd (himp d.name htaken), h.parse_ok⟩

/-- Definitions cannot be stored together exactly if one of them, wherever it stands, has no
readable text, an earlier name or a name that is taken. -/
theorem not_areStorable_iff : ¬AreStorable taken definitions ↔
    ∃ earlier d later, definitions = earlier ++ d :: later ∧
      ((∃ e, Condition.parse d.text = .error e) ∨ d.name ∈ earlier.map RuleDefinition.name ∨
        taken d.name) := by
  induction definitions generalizing taken with
  | nil => simp [areStorable_nil]
  | cons d definitions ih =>
    have hparse : (∃ e, Condition.parse d.text = .error e) ↔
        ¬∃ condition, Condition.parse d.text = .ok condition := by
      cases Condition.parse d.text <;> simp
    rw [exists_split_cons, areStorable_cons, not_and_or, not_and_or, not_not, ih, hparse]
    simp only [List.map_cons, List.mem_cons, List.map_nil, List.not_mem_nil, false_or, or_assoc,
      or_left_comm]

/-- A definition is read as an entry : itself with its condition. -/
def IsReadAs (definition : RuleDefinition) (entry : RuleDefinition × Condition) : Prop :=
  entry.1 = definition ∧ Condition.parse definition.text = .ok entry.2

theorem AreStorable.exists_entries (h : AreStorable taken definitions) :
    ∃ entries, List.Forall₂ IsReadAs definitions entries := by
  induction definitions generalizing taken with
  | nil => exact ⟨[], .nil⟩
  | cons d definitions ih =>
    obtain ⟨⟨condition, hparse⟩, -, hrest⟩ := areStorable_cons.mp h
    obtain ⟨entries, hentries⟩ := ih hrest
    exact ⟨(d, condition) :: entries, .cons ⟨rfl, hparse⟩ hentries⟩

/-- Why a definition cannot be stored where some names are taken. The name comes first. -/
def IsRefused (taken : String → Prop) (definition : RuleDefinition) (error : RuleError) : Prop :=
  taken definition.name ∧ error = .duplicateName definition.name ∨
    ¬taken definition.name ∧
      ∃ e, Condition.parse definition.text = .error e ∧ error = .parse e

/-! ## Reading a set -/

theorem readAll_eq_ok_iff {before : List String} : readAll before definitions = .ok entries ↔
    AreStorable (· ∈ before) definitions ∧ List.Forall₂ IsReadAs definitions entries := by
  induction definitions generalizing before entries with
  | nil =>
    rw [readAll, List.forall₂_nil_left_iff, Except.ok.injEq, eq_comm]
    exact ⟨fun h => ⟨areStorable_nil, h⟩, And.right⟩
  | cons d definitions ih =>
    rw [areStorable_cons, List.forall₂_cons_left_iff, readAll]
    by_cases hname : d.name ∈ before
    · simp [hname]
    · rw [if_neg hname]
      cases hparse : Condition.parse d.text with
      | error e => simp
      | ok condition =>
        simp only [map_eq_ok_iff, ih, List.mem_cons, IsReadAs, hparse]
        constructor
        · rintro ⟨rest, ⟨hrest, hread⟩, rfl⟩
          exact ⟨⟨⟨condition, rfl⟩, hname, hrest⟩, (d, condition), rest, ⟨rfl, rfl⟩, hread, rfl⟩
        · rintro ⟨⟨-, -, hrest⟩, ⟨d', condition'⟩, rest, ⟨hd, hcondition⟩, hread, rfl⟩
          cases hd
          cases hcondition
          exact ⟨rest, ⟨hrest, hread⟩, rfl⟩

/-- Reading stops at the first definition that is refused. The names before it are taken. -/
theorem readAll_eq_error_iff {before : List String} : readAll before definitions = .error error ↔
    ∃ earlier d later, definitions = earlier ++ d :: later ∧
      AreStorable (· ∈ before) earlier ∧
      IsRefused (fun name => name ∈ before ∨ name ∈ earlier.map RuleDefinition.name) d error := by
  induction definitions generalizing before with
  | nil => simp [readAll]
  | cons d definitions ih =>
    rw [exists_split_cons, readAll]
    by_cases hname : d.name ∈ before
    · simp [hname, areStorable_nil, areStorable_cons, IsRefused, eq_comm]
    · rw [if_neg hname]
      cases hparse : Condition.parse d.text with
      | error e => simp [hname, hparse, areStorable_nil, areStorable_cons, IsRefused, eq_comm]
      | ok condition =>
        have hhead : ¬IsRefused (fun name => name ∈ before ∨ name ∈ [].map RuleDefinition.name) d
            error := by
          simp [IsRefused, hname, hparse]
        rw [or_iff_right fun h => hhead h.2, map_eq_error_iff, ih]
        simp only [areStorable_cons, hname, List.mem_cons, List.map_cons, not_false_eq_true,
          true_and, and_iff_right (⟨condition, hparse⟩ : ∃ c, Condition.parse d.text = .ok c),
          or_left_comm, or_assoc]

/-! ## Storing a set -/

/-- A set is stored if its definitions are storable, and then their entries are added. -/
theorem load_eq_ok_iff {set : RuleSet} : book.load clock set = (.ok rules, book') ↔
    AreStorable (book.hasName · = true) set.rules ∧
      ∃ entries, List.Forall₂ IsReadAs set.rules entries ∧
        book.addAll clock entries = (rules, book') := by
  have hunread (h : AreStorable (book.hasName · = true) set.rules) {entries}
      (hread : List.Forall₂ IsReadAs set.rules entries) : readAll [] set.rules = .ok entries :=
    readAll_eq_ok_iff.mpr ⟨h.mono (by simp), hread⟩
  rw [load]
  cases hread : readAll [] set.rules with
  | error e =>
    constructor
    · intro h
      cases h
    · rintro ⟨hstorable, entries, hentries, -⟩
      cases hread.symm.trans (hunread hstorable hentries)
  | ok entries =>
    obtain ⟨hstorable, hentries⟩ := readAll_eq_ok_iff.mp hread
    cases hfind : set.rules.find? (book.hasName ·.name) with
    | some d =>
      constructor
      · intro h
        cases h
      · rintro ⟨hstorable, -⟩
        have hfree := hstorable.not_taken d (List.mem_of_find?_eq_some hfind)
        exact absurd (List.find?_some hfind) hfree
    | none =>
      have hfree : ∀ d ∈ set.rules, ¬book.hasName d.name = true := List.find?_eq_none.mp hfind
      constructor
      · intro h
        cases h
        exact ⟨⟨hstorable.names_nodup, hfree, hstorable.parse_ok⟩, entries, hentries, rfl⟩
      · rintro ⟨hstorable, entries', hentries', hadd⟩
        cases hread.symm.trans (hunread hstorable hentries')
        simp only [hadd]

/-- A set is not stored if a definition is refused, whatever rules there are, or else if a name is
the name of a stored rule. The book is left as it was. -/
theorem load_eq_error_iff {set : RuleSet} : book.load clock set = (.error error, book') ↔
    book' = book ∧
      (readAll [] set.rules = .error error ∨ (∃ entries, readAll [] set.rules = .ok entries) ∧
        ∃ d, set.rules.find? (book.hasName ·.name) = some d ∧ error = .duplicateName d.name) := by
  rw [load]
  cases readAll [] set.rules with
  | error e => simp [and_comm, eq_comm]
  | ok entries =>
    cases set.rules.find? (book.hasName ·.name) with
    | some d => simp [and_comm, eq_comm]
    | none => simp

/-! ## Creating rules one after the other -/

theorem create_eq_ok_iff {now : Instant} {rule : Rule} :
    book.create now definition = (.ok rule, book') ↔ ∃ condition,
      Condition.parse definition.text = .ok condition ∧ book.hasName definition.name = false ∧
        book.add now definition.name definition.description condition = (rule, book') := by
  rw [create]
  cases Condition.parse definition.text with
  | error e => simp
  | ok condition => cases book.hasName definition.name <;> simp [Prod.ext_iff]

/-- The calls that create a rule for each definition, at one reading of a clock after the other. -/
def createCalls (clock : Clock) : List RuleDefinition → List Call
  | [] => []
  | definition :: definitions => .create clock.now definition :: createCalls clock.tick definitions

theorem run_create_cons_eq_iff {now : Instant} {calls : List Call} :
    book.run (.create now definition :: calls) = (rules.map (.ok <| .created ·), book') ↔
      ∃ rule rest mid, rules = rule :: rest ∧ book.create now definition = (.ok rule, mid) ∧
        mid.run calls = (rest.map (.ok <| .created ·), book') := by
  constructor
  · intro h
    obtain ⟨hanswers, hafter⟩ := Prod.ext_iff.mp h
    obtain ⟨rule, rest, rfl, hrule, hrest⟩ := List.map_eq_cons_iff.mp hanswers.symm
    obtain ⟨rule', hcreate, heq⟩ := map_eq_ok_iff.mp hrule.symm
    cases heq
    exact ⟨rule, rest, _, rfl, Prod.ext hcreate rfl, Prod.ext hrest.symm hafter⟩
  · rintro ⟨rule, rest, mid, rfl, hcreate, hrun⟩
    simp [run, call, hcreate, hrun, Except.map]

/-- Creating rules one after the other succeeds throughout for the definitions that can be stored
together, and then their entries are added. -/
theorem run_createCalls_eq_iff : book.run (createCalls clock definitions) =
      (rules.map (.ok <| .created ·), book') ↔
    AreStorable (book.hasName · = true) definitions ∧
      ∃ entries, List.Forall₂ IsReadAs definitions entries ∧
        book.addAll clock entries = (rules, book') := by
  induction definitions generalizing book clock rules with
  | nil =>
    simp only [createCalls, run, List.forall₂_nil_left_iff, exists_eq_left, addAll, Prod.mk.injEq]
    rw [eq_comm (a := []), List.map_eq_nil_iff]
    exact ⟨fun h => ⟨areStorable_nil, h.1.symm, h.2⟩, fun h => ⟨h.2.1.symm, h.2.2⟩⟩
  | cons d definitions ih =>
    simp only [createCalls, run_create_cons_eq_iff, create_eq_ok_iff, areStorable_cons, ih]
    constructor
    · rintro ⟨rule, rest, mid, rfl, ⟨condition, hparse, hfree, hadd⟩, hrest, hall⟩
      obtain ⟨entries, hentries, hall⟩ := hall
      obtain ⟨rfl, rfl⟩ := Prod.ext_iff.mp hadd
      simp only [hasName_add_iff] at hrest
      exact ⟨⟨⟨condition, hparse⟩, by simp [hfree], hrest⟩, (d, condition) :: entries,
        .cons ⟨rfl, hparse⟩ hentries, by simp only [addAll, hall]⟩
    · rintro ⟨⟨-, hfree, hrest⟩, _, hread, hall⟩
      obtain ⟨⟨d', condition⟩, entries, ⟨rfl, hparse⟩, hentries, rfl⟩ :=
        List.forall₂_cons_left_iff.mp hread
      obtain ⟨rfl, rfl⟩ := Prod.mk.inj hall
      let added := book.add clock.now d'.name d'.description condition
      refine ⟨added.1, (added.2.addAll clock.tick entries).1, added.2, rfl,
        ⟨condition, hparse, by simpa using hfree, rfl⟩, ?_, entries, hentries, rfl⟩
      simpa only [added, hasName_add_iff] using hrest

/-- A stored set has one new rule for each definition. -/
theorem extends_addAll (h : AreStorable (book.hasName · = true) definitions)
    (hread : List.Forall₂ IsReadAs definitions entries) :
    Extends book (book.addAll clock entries).1 (book.addAll clock entries).2 := by
  induction hread generalizing book clock with
  | nil => exact .refl book
  | @cons d entry definitions entries hentry hentries ih =>
    obtain ⟨rfl, -⟩ := hentry
    obtain ⟨-, hfree, hrest⟩ := areStorable_cons.mp h
    exact .add (by simpa using hfree) (ih (by simpa only [hasName_add_iff] using hrest))

theorem length_addAll (book : RuleBook) (clock : Clock)
    (entries : List (RuleDefinition × Condition)) :
    (book.addAll clock entries).1.length = entries.length := by
  induction entries generalizing book clock with
  | nil => rfl
  | cons entry entries ih => exact congrArg (· + 1) (ih _ _)

/-! ## Aside from the times of creation -/

/-- The book without times of creation. -/
def undated (book : RuleBook) : RuleBook := book.mapRules Rule.undated

/-- What is added at any times is, aside from them, what is added at the beginning of 1970. -/
theorem undated_addAll (book : RuleBook) (clock : Clock)
    (entries : List (RuleDefinition × Condition)) :
    ((book.addAll clock entries).1.map Rule.undated, (book.addAll clock entries).2.undated) =
      book.undated.addAll (.stopped ⟨0, 0⟩) entries := by
  induction entries generalizing book clock with
  | nil => rfl
  | cons entry entries ih =>
    obtain ⟨definition, condition⟩ := entry
    have hadd : (book.add clock.now definition.name definition.description condition).2.undated =
        (book.undated.add ⟨0, 0⟩ definition.name definition.description condition).2 :=
      mapRules_add Rule.undated
    have hrest :=
      ih (book.add clock.now definition.name definition.description condition).2 clock.tick
    rw [hadd] at hrest
    obtain ⟨hrules, hbook⟩ := Prod.ext_iff.mp hrest
    exact Prod.ext (congrArg (_ :: ·) hrules) hbook

/-! ## Storing a set and creating its rules -/

theorem load_ok_iff_areStorable {set : RuleSet} :
    (∃ rules, (book.load clock set).1 = .ok rules) ↔
      AreStorable (book.hasName · = true) set.rules := by
  constructor
  · rintro ⟨rules, h⟩
    exact (load_eq_ok_iff.mp (Prod.ext h rfl)).1
  · intro h
    obtain ⟨entries, hentries⟩ := h.exists_entries
    exact ⟨_, congrArg Prod.fst (load_eq_ok_iff.mpr ⟨h, entries, hentries, rfl⟩)⟩

theorem created_iff_areStorable :
    (∀ answer ∈ book.answers (createCalls clock definitions),
        ∃ rule, answer = .ok (.created rule)) ↔
      AreStorable (book.hasName · = true) definitions := by
  have hmap (answers : List (Except RuleError Answer)) :
      (∀ answer ∈ answers, ∃ rule, answer = .ok (.created rule)) ↔
        ∃ rules : List Rule, rules.map (.ok <| .created ·) = answers := by
    simpa [Set.mem_range, eq_comm] using
      (Set.ext_iff.mp (Set.range_list_map fun rule => Except.ok (Answer.created rule)) answers).symm
  rw [hmap]
  constructor
  · rintro ⟨rules, h⟩
    exact (run_createCalls_eq_iff.mp (Prod.ext h.symm rfl)).1
  · intro h
    obtain ⟨entries, hentries⟩ := h.exists_entries
    exact ⟨_, congrArg Prod.fst (run_createCalls_eq_iff.mpr ⟨h, entries, hentries, rfl⟩).symm⟩

/-- Aside from the times of creation, what is stored as a set is what is created one by one. -/
theorem undated_eq_of_load {set : RuleSet} {clock' : Clock}
    (h : book.load clock set = (.ok rules, book')) : ∃ rules' : List Rule,
      book.answers (createCalls clock' set.rules) = rules'.map (.ok <| .created ·) ∧
        rules'.map Rule.undated = rules.map Rule.undated ∧
        (book.after (createCalls clock' set.rules)).undated = book'.undated := by
  obtain ⟨hstorable, entries, hentries, hadd⟩ := load_eq_ok_iff.mp h
  have hrun : book.run (createCalls clock' set.rules) =
      ((book.addAll clock' entries).1.map (.ok <| .created ·), (book.addAll clock' entries).2) :=
    run_createCalls_eq_iff.mpr ⟨hstorable, entries, hentries, rfl⟩
  have hundated :=
    (book.undated_addAll clock' entries).trans (book.undated_addAll clock entries).symm
  rw [hadd] at hundated
  obtain ⟨hrules, hbook⟩ := Prod.ext_iff.mp hundated
  exact ⟨_, congrArg Prod.fst hrun, hrules, (congrArg (·.2.undated) hrun).trans hbook⟩

theorem ids_of_load {set : RuleSet} (h : book.load clock set = (.ok rules, book')) :
    rules.map Rule.id = List.range' (book.lastId + 1) set.rules.length := by
  obtain ⟨hstorable, entries, hentries, hadd⟩ := load_eq_ok_iff.mp h
  have hextends : Extends book (book.addAll clock entries).1 (book.addAll clock entries).2 :=
    extends_addAll hstorable hentries
  have hids := hextends.ids_eq
  rwa [length_addAll, ← hentries.length_eq, hadd] at hids

/-- A set is refused for the first definition that has an earlier name or no readable text, or
else for the first one whose name a stored rule has. -/
theorem load_error_iff {set : RuleSet} : (book.load clock set).1 = .error error ↔
    (∃ earlier d later, set.rules = earlier ++ d :: later ∧ AreStorable (fun _ => False) earlier ∧
      IsRefused (· ∈ earlier.map RuleDefinition.name) d error) ∨
    AreStorable (fun _ => False) set.rules ∧ ∃ earlier d later, set.rules = earlier ++ d :: later ∧
      (∀ e ∈ earlier, book.hasName e.name = false) ∧ book.hasName d.name = true ∧
        error = .duplicateName d.name := by
  have hread : (∃ entries, readAll [] set.rules = .ok entries) ↔
      AreStorable (fun _ => False) set.rules := by
    simp only [readAll_eq_ok_iff, List.not_mem_nil]
    exact ⟨fun ⟨_, h, _⟩ => h, fun h => h.exists_entries.imp fun _ hentries => ⟨h, hentries⟩⟩
  have hfind : (∃ d, set.rules.find? (book.hasName ·.name) = some d ∧
        error = .duplicateName d.name) ↔
      ∃ earlier d later, set.rules = earlier ++ d :: later ∧
        (∀ e ∈ earlier, book.hasName e.name = false) ∧ book.hasName d.name = true ∧
          error = .duplicateName d.name := by
    simp only [List.find?_eq_some_iff_append, Bool.not_eq_true']
    constructor
    · rintro ⟨d, ⟨hname, earlier, later, heq, hfree⟩, herror⟩
      exact ⟨earlier, d, later, heq, hfree, hname, herror⟩
    · rintro ⟨earlier, d, later, heq, hfree, hname, herror⟩
      exact ⟨d, ⟨hname, earlier, later, heq, hfree⟩, herror⟩
  have hload : (book.load clock set).1 = .error error ↔
      readAll [] set.rules = .error error ∨ (∃ entries, readAll [] set.rules = .ok entries) ∧
        ∃ d, set.rules.find? (book.hasName ·.name) = some d ∧ error = .duplicateName d.name :=
    ⟨fun h => (load_eq_error_iff.mp (Prod.ext h rfl)).2,
      fun h => congrArg Prod.fst (load_eq_error_iff.mpr ⟨rfl, h⟩)⟩
  rw [hload, readAll_eq_error_iff, hread, hfind]
  simp only [List.not_mem_nil, false_or]

/-- Storing a set succeeds exactly if creating its rules one after the other does for each of
them. Both then give the same rules and leave the same book, if the clock shows the same times, and
else aside from the times of creation; the ids follow on the last one. A set is refused for the
first definition that has an earlier name of the set or no readable text, the name before the
text, and only if there is none for the first one whose name a stored rule has. -/
theorem load_iff_create_each (book : RuleBook) (set : RuleSet) (clock clock' : Clock) :
    ((∃ rules, (book.load clock set).1 = .ok rules) ↔
      ∀ answer ∈ book.answers (createCalls clock' set.rules),
        ∃ rule, answer = .ok (.created rule)) ∧
    (∀ rules book', book.load clock set = (.ok rules, book') ↔
      book.run (createCalls clock set.rules) = (rules.map (.ok <| .created ·), book')) ∧
    (∀ rules book', book.load clock set = (.ok rules, book') →
      rules.map Rule.id = List.range' (book.lastId + 1) set.rules.length ∧
      ∃ rules' : List Rule,
        book.answers (createCalls clock' set.rules) = rules'.map (.ok <| .created ·) ∧
        rules'.map Rule.undated = rules.map Rule.undated ∧
        (book.after (createCalls clock' set.rules)).undated = book'.undated) ∧
    (∀ error, (book.load clock set).1 = .error error ↔
      (∃ earlier d later, set.rules = earlier ++ d :: later ∧
        AreStorable (fun _ => False) earlier ∧
        IsRefused (· ∈ earlier.map RuleDefinition.name) d error) ∨
      AreStorable (fun _ => False) set.rules ∧
        ∃ earlier d later, set.rules = earlier ++ d :: later ∧
          (∀ e ∈ earlier, book.hasName e.name = false) ∧ book.hasName d.name = true ∧
            error = .duplicateName d.name) :=
  ⟨load_ok_iff_areStorable.trans created_iff_areStorable.symm,
    fun _ _ => load_eq_ok_iff.trans run_createCalls_eq_iff.symm,
    fun _ _ h => ⟨ids_of_load h, undated_eq_of_load h⟩, fun _ => load_error_iff⟩

/-- A set of two is stored behind the rule that a book has, at two readings of the clock. -/
theorem load_iff_create_each_two :
    let rule (id : Nat) (name : String) (bound : Int) (t : Instant) : Rule :=
      ⟨id, name, "", .compare ⟨"x", .greater, .number (.ofInt bound)⟩, true, 1, t⟩
    let clock : Clock := ⟨fun n => ⟨n, 0⟩⟩
    let book := (empty.create ⟨9, 0⟩ ⟨"a", "", "x > 1"⟩).2
    let set : RuleSet := ⟨[⟨"b", "", "x > 2"⟩, ⟨"c", "", "x > 3"⟩]⟩
    (book.load clock set).1 = .ok [rule 2 "b" 2 ⟨0, 0⟩, rule 3 "c" 3 ⟨1, 0⟩] ∧
      [rule 2 "b" 2 ⟨0, 0⟩, rule 3 "c" 3 ⟨1, 0⟩].map Rule.id =
        List.range' (book.lastId + 1) set.rules.length ∧
      (book.after (createCalls (.stopped ⟨5, 0⟩) set.rules)).undated =
        (book.load clock set).2.undated := by
  intro rule clock book set
  have hload : (book.load clock set).1 = .ok [rule 2 "b" 2 ⟨0, 0⟩, rule 3 "c" 3 ⟨1, 0⟩] := by
    decide +kernel
  obtain ⟨hids, rules', -, -, hbook⟩ :=
    (load_iff_create_each book set clock (.stopped ⟨5, 0⟩)).2.2.1 _ _ (Prod.ext hload rfl)
  exact ⟨hload, hids, hbook⟩

end RuleBook

end Eligibility
