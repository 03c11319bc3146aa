import Eligibility.Lexeme

/-!
# Nodes

A condition is stored as a flat list of nodes that refer to one another by position. Nothing is
certain of a list that comes from outside: each part of a node may be absent, and a reference
may lead anywhere. `Node.shape` says what a single node stands for, or which `NodeFault` it
has.
-/

namespace Eligibility

/-- A node as it is stored; `left` and `right` are positions in the list. -/
structure Node where
  kind : Option String
  operator : Option String
  field : Option String
  literal : Option Literal
  left : Option Nat
  right : Option Nat
  deriving DecidableEq

/-- Why the node at a position does not stand for a condition. -/
inductive NodeFault where
  | absent (index : Nat)
  | tooDeep (index : Nat)
  | shared (index : Nat)
  | untyped (index : Nat)
  | unknownKind (index : Nat) (kind : String)
  | operatorWithData (index : Nat)
  | operatorWithoutKeyword (index : Nat)
  | unknownConnective (keyword : String)
  | operatorWithoutChildren (index : Nat)
  | operandWithChildren (index : Nat)
  | operandIncomplete (index : Nat)
  | unusableField (index : Nat) (field : String)
  | unusableComparator (index : Nat) (symbol : String)
  | inexpressible (index : Nat) (literal : Literal)
  deriving DecidableEq

namespace Node

/-- The kind of the nodes that join two conditions. -/
def operatorKind : String := "operator"

/-- The kind of the nodes that compare. -/
def operandKind : String := "operand"

/-- The node of a comparison. -/
def ofComparison (c : Comparison) : Node :=
  ⟨some operandKind, some c.comparator.symbol, some c.field, some c.literal, none, none⟩

/-- The node of a join. -/
def ofConnective (c : Connective) (left right : Nat) : Node :=
  ⟨some operatorKind, some c.keyword, none, none, some left, some right⟩

/-- What one node stands for. -/
inductive Shape where
  | compare (comparison : Comparison)
  | join (connective : Connective) (left right : Nat)
  deriving DecidableEq

/-- The shape of a node of operator kind: a connective and two children, and no data. -/
def operatorShape (index : Nat) (node : Node) : Except NodeFault Shape :=
  if node.field.isSome || node.literal.isSome then .error (.operatorWithData index)
  else
    match node.operator with
    | none => .error (.operatorWithoutKeyword index)
    | some keyword =>
      match Connective.ofKeyword? keyword, node.left, node.right with
      | none, _, _ => .error (.unknownConnective keyword)
      | some connective, some left, some right => .ok (.join connective left right)
      | some _, _, _ => .error (.operatorWithoutChildren index)

/-- The shape of a node of operand kind: a comparison that rules can express, and no children. -/
def operandShape (index : Nat) (node : Node) : Except NodeFault Shape :=
  if node.left.isSome || node.right.isSome then .error (.operandWithChildren index)
  else
    match node.field, node.operator, node.literal with
    | some field, some symbol, some literal =>
      if !Token.isFieldName field then .error (.unusableField index field)
      else if !Token.isComparatorSymbol symbol then .error (.unusableComparator index symbol)
      else if !literal.isExpressible then .error (.inexpressible index literal)
      else .ok (.compare ⟨field, .ofSymbol symbol, literal⟩)
    | _, _, _ => .error (.operandIncomplete index)

/-- The shape of the node at a position. -/
def shape (index : Nat) (node : Node) : Except NodeFault Shape :=
  match node.kind with
  | none => .error (.untyped index)
  | some kind =>
    if kind = operatorKind then node.operatorShape index
    else if kind = operandKind then node.operandShape index
    else .error (.unknownKind index kind)

end Node

end Eligibility
