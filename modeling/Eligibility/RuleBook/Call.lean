import Eligibility.RuleBook

/-!
# Calls of a rule book

A `RuleBook.Call` is a call of a rule book as a value, so that one can speak of any number of
them in any order : `RuleBook.call` makes one, and `RuleBook.run` makes several, each on the book
that the one before it left.
-/

namespace Eligibility

namespace RuleBook

/-- A call with its arguments, and the time or the clock that it looks at. -/
inductive Call where
  | create (now : Instant) (definition : RuleDefinition)
  | load (clock : Clock) (set : RuleSet)
  | get (id : Nat)
  | getByName (name : String)
  | list
  | count
  | delete (id : Nat)
  | setActive (id : Nat) (active : Bool)
  | eval (id : Nat) (record : Record)
  | evalRequest (request : EvaluateRequest)
  | combine (clock : Clock) (ids : List Nat)
  | combineRequest (clock : Clock) (request : CombineRequest)

/-- What a call that succeeds answers. -/
inductive Answer where
  | created (rule : Rule)
  | loaded (rules : List Rule)
  | found (rule : Option Rule)
  | listed (rules : List Rule)
  | counted (count : Nat)
  | deleted (rule : Rule)
  | marked (rule : Rule)
  | tested (result : Bool)
  deriving DecidableEq

/-- Makes a call. -/
def call (book : RuleBook) : Call → Except RuleError Answer × RuleBook
  | .create now definition =>
    let (result, book) := book.create now definition
    (result.map .created, book)
  | .load clock set =>
    let (result, book) := book.load clock set
    (result.map .loaded, book)
  | .get id => (.ok (.found (book.get? id)), book)
  | .getByName name => (.ok (.found (book.getByName? name)), book)
  | .list => (.ok (.listed book.toList), book)
  | .count => (.ok (.counted book.size), book)
  | .delete id =>
    let (result, book) := book.delete id
    (result.map .deleted, book)
  | .setActive id active =>
    let (result, book) := book.setActive id active
    (result.map .marked, book)
  | .eval id record => ((book.eval id record).map .tested, book)
  | .evalRequest request => ((book.evalRequest request).map .tested, book)
  | .combine clock ids =>
    let (result, book) := book.combine clock ids
    (result.map .created, book)
  | .combineRequest clock request =>
    let (result, book) := book.combineRequest clock request
    (result.map .created, book)

/-- Makes calls one after the other. -/
def run (book : RuleBook) : List Call → List (Except RuleError Answer) × RuleBook
  | [] => ([], book)
  | call :: calls =>
    let (answer, book) := book.call call
    let (answers, book) := book.run calls
    (answer :: answers, book)

/-- The answers to calls. -/
def answers (book : RuleBook) (calls : List Call) : List (Except RuleError Answer) :=
  (book.run calls).1

/-- The book that calls leave. -/
def after (book : RuleBook) (calls : List Call) : RuleBook :=
  (book.run calls).2

section Run

variable (book : RuleBook) (c : Call) (calls : List Call)

@[simp] theorem answers_nil : book.answers [] = [] := rfl

@[simp] theorem answers_cons :
    book.answers (c :: calls) = (book.call c).1 :: (book.call c).2.answers calls := rfl

@[simp] theorem after_nil : book.after [] = book := rfl

@[simp] theorem after_cons : book.after (c :: calls) = (book.call c).2.after calls := rfl

end Run

/-! ## Rules that calls add -/

/-- The rules that a call with that answer has added to the book. -/
def Answer.added : Answer → List Rule
  | created rule => [rule]
  | loaded rules => rules
  | _ => []

/-- The rules that a call has added, which are none if it failed. -/
def addedBy (answer : Except RuleError Answer) : List Rule :=
  answer.toOption.elim [] Answer.added

/-- The rules that calls add, in the order in which they do. -/
def added (book : RuleBook) (calls : List Call) : List Rule :=
  (book.answers calls).flatMap addedBy

@[simp] theorem added_nil (book : RuleBook) : book.added [] = [] := rfl

@[simp] theorem added_cons (book : RuleBook) (c : Call) (calls : List Call) :
    book.added (c :: calls) = addedBy (book.call c).1 ++ (book.call c).2.added calls := rfl

end RuleBook

end Eligibility
