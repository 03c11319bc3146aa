import Eligibility.Node
import Eligibility.Text.Quoted

/-!
# Messages on nodes

`NodeFault.message` tells which node is at fault and why. A literal that rules cannot express
is shown with its type, since texts that look like numbers are among them.
-/

namespace Eligibility

/-- A literal with its type. -/
def Literal.describe : Literal → String
  | number value => s!"Number({value.toText})"
  | text value => s!"String({quoted value})"

namespace NodeFault

/-- What is wrong with a node. -/
def detail : NodeFault → String
  | absent index => s!"node {index} does not exist"
  | tooDeep index => s!"node {index} lies deeper than {maxDepth} levels"
  | shared index => s!"node {index} is referenced more than once"
  | untyped index => s!"node {index} has no type"
  | unknownKind index kind => s!"node {index} has unknown type '{kind}'"
  | operatorWithData index => s!"operator node {index} carries a field or value"
  | operatorWithoutKeyword index => s!"operator node {index} has no operator"
  | unknownConnective keyword => keyword
  | operatorWithoutChildren index => s!"operator node {index} needs two children"
  | operandWithChildren index => s!"operand node {index} has children"
  | operandIncomplete index => s!"operand node {index} needs a field, operator and value"
  | unusableField index field => s!"operand node {index} has unusable field name '{field}'"
  | unusableComparator index symbol => s!"operand node {index} has unusable operator '{symbol}'"
  | inexpressible index literal =>
    s!"operand node {index} has a value rule text cannot express: {literal.describe}"

/-- The message on a node. -/
def message : NodeFault → String
  | unknownConnective keyword => s!"Unknown operator: {keyword}"
  | fault => s!"Invalid node: {fault.detail}"

end NodeFault

end Eligibility
