import Eligibility.Condition.Parser
import Eligibility.Rule
import Eligibility.RuleError
import Eligibility.TextMap
import Eligibility.Wire.Definition
import Eligibility.Wire.Request
import Std.Data.ExtTreeMap

/-!
# The rule book

A rule book keeps rules under ids and names. Ids are given in ascending order from 1 and never
twice; a name belongs to one rule at a time. Each call answers and leaves a book, whether or not it
succeeds; where it needs the time it is given `now`, or a clock if it looks at the time more than
once.

Ids are naturals, and the last one is the number of rules that were ever added. A counter of 64
bits gives the same ids as long as that number is below `idBound`, so for all books that there is
time to fill.

`RuleBook.load` stores a whole rule set or nothing: every text is read, and every name
compared, before the first rule is added. `RuleBook.combine` names its rule after the time, and
if that name is taken appends the first free number (`RuleBook.freeName`).
-/

namespace Eligibility

/-- Rules under ids and names. -/
structure RuleBook where
  rules : Std.ExtTreeMap Nat Rule compare
  /-- The ids of the rules by their names. -/
  ids : TextMap Nat
  /-- The last id that was given, which is what a counter of 64 bits shows below `idBound`. -/
  lastId : Nat

namespace RuleBook

/-- The book without rules. -/
def empty : RuleBook := ⟨∅, .empty, 0⟩

/-! ## Looking up -/

/-- The number of rules. -/
def size (book : RuleBook) : Nat := book.rules.size

/-- Whether there are no rules. -/
def isEmpty (book : RuleBook) : Bool := book.rules.isEmpty

/-- Whether a rule has a name. -/
def hasName (book : RuleBook) (name : String) : Bool := book.ids.contains name

/-- The rule with an id. -/
def get? (book : RuleBook) (id : Nat) : Option Rule := book.rules[id]?

/-- The rule with a name. -/
def getByName? (book : RuleBook) (name : String) : Option Rule :=
  (book.ids.get? name).bind book.get?

/-- All rules, in the order of their ids. -/
def toList (book : RuleBook) : List Rule := book.rules.toList.map Prod.snd

/-- The rule with an id, which has to be there. -/
def find (book : RuleBook) (id : Nat) : Except RuleError Rule :=
  match book.get? id with
  | some rule => .ok rule
  | none => .error (.notFound id)

/-- Tests a record by a stored rule. -/
def eval (book : RuleBook) (id : Nat) (record : Record) : Except RuleError Bool := do
  ((← book.find id).eval record).mapError .eval

/-- Tests the record of a request. -/
def evalRequest (book : RuleBook) (request : EvaluateRequest) : Except RuleError Bool :=
  book.eval request.ruleId.toNat request.data

/-! ## Adding rules -/

/-- Adds a rule under the next id. -/
def add (book : RuleBook) (now : Instant) (name description : String) (condition : Condition) :
    Rule × RuleBook :=
  let id := book.lastId + 1
  let rule := ⟨id, name, description, condition, true, 1, now⟩
  (rule, ⟨book.rules.insert id rule, book.ids.insert name id, id⟩)

/-- Reads a text and stores its condition under a name that is free. -/
def create (book : RuleBook) (now : Instant) (definition : RuleDefinition) :
    Except RuleError Rule × RuleBook :=
  match Condition.parse definition.text with
  | .error error => (.error (.parse error), book)
  | .ok condition =>
    if book.hasName definition.name then (.error (.duplicateName definition.name), book)
    else
      let (rule, book) := book.add now definition.name definition.description condition
      (.ok rule, book)

/-- The conditions of definitions, whose names have to differ from one another and from those
`before`. -/
def readAll (before : List String) :
    List RuleDefinition → Except RuleError (List (RuleDefinition × Condition))
  | [] => .ok []
  | definition :: definitions =>
    if definition.name ∈ before then .error (.duplicateName definition.name)
    else
      match Condition.parse definition.text with
      | .error error => .error (.parse error)
      | .ok condition =>
        (readAll (definition.name :: before) definitions).map ((definition, condition) :: ·)

/-- Adds rules one after the other, each at its own reading of the clock. -/
def addAll (book : RuleBook) (clock : Clock) :
    List (RuleDefinition × Condition) → List Rule × RuleBook
  | [] => ([], book)
  | (definition, condition) :: rest =>
    let (rule, book) := book.add clock.now definition.name definition.description condition
    let (rules, book) := book.addAll clock.tick rest
    (rule :: rules, book)

/-- Stores all rules of a set, or none. -/
def load (book : RuleBook) (clock : Clock) (set : RuleSet) :
    Except RuleError (List Rule) × RuleBook :=
  match readAll [] set.rules with
  | .error error => (.error error, book)
  | .ok definitions =>
    match set.rules.find? (book.hasName ·.name) with
    | some definition => (.error (.duplicateName definition.name), book)
    | none =>
      let (rules, book) := book.addAll clock definitions
      (.ok rules, book)

/-! ## Changing and removing rules -/

/-- Removes a rule. -/
def delete (book : RuleBook) (id : Nat) : Except RuleError Rule × RuleBook :=
  match book.find id with
  | .error error => (.error error, book)
  | .ok rule => (.ok rule, ⟨book.rules.erase id, book.ids.erase rule.name, book.lastId⟩)

/-- Marks a rule as active or not. -/
def setActive (book : RuleBook) (id : Nat) (active : Bool) : Except RuleError Rule × RuleBook :=
  match book.find id with
  | .error error => (.error error, book)
  | .ok rule =>
    let rule := { rule with isActive := active }
    (.ok rule, { book with rules := book.rules.insert id rule })

/-! ## Combining rules -/

/-- A name with a number. -/
def numberedName (base : String) (n : Nat) : String := s!"{base}-{n}"

/-- The first free name among `base` with the numbers from `n` on. After as many `tries` as there
are names the next one is free. -/
def freeNumbered (book : RuleBook) (base : String) : (tries : Nat) → (n : Nat) → String
  | 0, n => numberedName base n
  | tries + 1, n =>
    if book.hasName (numberedName base n) then book.freeNumbered base tries (n + 1)
    else numberedName base n

/-- A name that no rule has: `base` itself, or with the first free number from the next id on. -/
def freeName (book : RuleBook) (base : String) : String :=
  if book.hasName base then book.freeNumbered base book.ids.size (book.lastId + 1) else base

/-- The name of a rule combined at a time. -/
def combinedName (now : Instant) : String := s!"Combined Rule {now.milliseconds}"

/-- The description of combined rules. -/
def combinedDescription : String := "Automatically combined rule"

/-- Stores the combination of stored rules as a rule of its own. The clock is read once for the
name and then for the rule. -/
def combine (book : RuleBook) (clock : Clock) (ids : List Nat) : Except RuleError Rule × RuleBook :=
  match ids.mapM book.find with
  | .error error => (.error error, book)
  | .ok sources =>
    match Condition.combine (sources.map Rule.condition) with
    | .error error => (.error (.combine error), book)
    | .ok condition =>
      let name := book.freeName (combinedName clock.now)
      let (rule, book) := book.add clock.tick.now name combinedDescription condition
      (.ok rule, book)

/-- Combines the rules of a request. -/
def combineRequest (book : RuleBook) (clock : Clock) (request : CombineRequest) :
    Except RuleError Rule × RuleBook :=
  book.combine clock (request.ruleIds.map UInt64.toNat)

end RuleBook

end Eligibility
