import Eligibility.Node.Fault
import Eligibility.Node.Unfold
import Eligibility.Record

/-!
# Evaluation

`Condition.eval` tests a record. It is eager: both parts of a join are evaluated before they
are joined, so a field that is missing anywhere is reported, the left-most first. A comparison
of values of different types is false, except that they are unequal; truth values have no
literals and are unequal to all.
-/

namespace Eligibility

/-- Why a record cannot be tested. -/
inductive EvalError where
  | missingField (field : String)
  | unknownComparator (symbol : String)
  /-- The nodes do not store a condition. -/
  | badNodes (fault : NodeFault)
  deriving DecidableEq

/-- The message on a failed test. -/
def EvalError.message : EvalError → String
  | missingField field => s!"Field not found in record: {field}"
  | unknownComparator symbol => s!"Unknown operator: {symbol}"
  | badNodes fault => fault.message

namespace FieldValue

/-- Equality of type and value. -/
def equals : FieldValue → Literal → Bool
  | number x, .number y => x.sameAs y
  | text s, .text t => s == t
  | _, _ => false

/-- The order of a value and a literal of the same type; texts are ordered by code points. -/
def compare? : FieldValue → Literal → Option Ordering
  | number x, .number y => x.compare? y
  | text s, .text t => some (compare s t)
  | _, _ => none

end FieldValue

/-- Whether a comparator holds between a value and a literal, if it is known. -/
def Comparator.holds? (value : FieldValue) (literal : Literal) : Comparator → Option Bool
  | equal => some (value.equals literal)
  | notEqual => some (!value.equals literal)
  | greater => some (value.compare? literal == some .gt)
  | less => some (value.compare? literal == some .lt)
  | greaterEqual => some ((value.compare? literal).any Ordering.isGE)
  | lessEqual => some ((value.compare? literal).any Ordering.isLE)
  | unknown _ => none

/-- Tests the field of a comparison. -/
def Comparison.eval (record : Record) (c : Comparison) : Except EvalError Bool :=
  match record.get? c.field with
  | none => .error (.missingField c.field)
  | some value =>
    match c.comparator.holds? value c.literal with
    | none => .error (.unknownComparator c.comparator.symbol)
    | some result => .ok result

namespace Condition

/-- Tests a record. -/
def eval (record : Record) : Condition → Except EvalError Bool
  | compare c => c.eval record
  | join connective left right => do
    let x ← left.eval record
    let y ← right.eval record
    return connective.apply x y

/-- Tests a record by the condition that nodes store. -/
def evalNodes (nodes : Array Node) (root : Nat) (record : Record) : Except EvalError Bool :=
  match ofNodes nodes root with
  | .error fault => .error (.badNodes fault)
  | .ok condition => condition.eval record

end Condition

end Eligibility
