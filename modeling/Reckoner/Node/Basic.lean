import Reckoner.Operator
import Reckoner.Quantity

/-!
# Nodes

A line is read into a list of nodes, and a node is what is done around one
operator: the operands read before it, the nodes nested in it, the operands
behind it, and then the operator. A node also remembers the state in which
reading left it, as the next node is read on from there.
-/

namespace Reckoner

/-- How far a node has been read. -/
inductive NodeState
  /-- A group ended before it was closed. -/
  | errored
  /-- Nothing has been read. -/
  | initial
  /-- The operator and an operand behind it have been read. -/
  | parsed
  /-- Operands have been read, but no operator. -/
  | number
  /-- The operator has been read and takes what is on the stack. -/
  | function
  /-- An operand has to follow. -/
  | binary
  /-- The group that the operator applies to has to follow. -/
  | unary
  /-- The unit to convert into has to follow. -/
  | convert
  /-- A group has been opened. -/
  | paren
  /-- A group has been closed. -/
  | closeParen
deriving DecidableEq

/-- The label of a state in the dump of a tree. -/
def NodeState.label : NodeState → String
  | errored => "ERRORED"
  | initial => "INIT"
  | parsed => "PARSED"
  | number => "NUMBER"
  | function => "FUNCTION"
  | binary => "BINARY"
  | unary => "UNARY"
  | convert => "CONVERT"
  | paren => "PAREN"
  | closeParen => "CLOSE_PAREN"

/-- A node of the tree of a line. -/
structure Node where
  state : NodeState
  operator : Option Operator
  /-- The operands before the operator. -/
  prior : List Quantity
  /-- The operands behind the operator. -/
  params : List Quantity
  /-- The nodes nested in this one. -/
  children : List Node

namespace Node

/-- A node of which nothing has been read, in the given state. -/
def blank (state : NodeState) : Node :=
  ⟨state, none, [], [], []⟩

/-- A node that begins with an operand. -/
def seeded (q : Quantity) : Node :=
  ⟨.number, none, [q], [], []⟩

/-- Nothing has been read into the node. -/
def isEmpty (node : Node) : Bool :=
  node.operator.isNone && node.prior.isEmpty && node.params.isEmpty && node.children.isEmpty

/-! ## The dump of a tree -/

/-- The texts of quantities, in a list. -/
def texts (settings : Settings) (qs : List Quantity) : Except Format.Refusal String := do
  return ", ".intercalate (← qs.mapM (Quantity.text settings))

mutual

/-- The lines of a node, those of its children indented further. -/
def lines (settings : Settings) (indent : Nat) : Node → Except Format.Refusal (List String)
  | ⟨state, operator, prior, params, children⟩ => do
    let pad := String.ofList (List.replicate (2 * indent) ' ')
    let spelling := (operator.map Operator.spelling).getD "-"
    let prior ← texts settings prior
    let params ← texts settings params
    let head := pad ++ state.label ++ " op=" ++ spelling ++
      " prior=[" ++ prior ++ "] params=[" ++ params ++ "]"
    return head :: (← childLines settings (indent + 1) children)

/-- The lines of several nodes. -/
def childLines (settings : Settings) (indent : Nat) :
    List Node → Except Format.Refusal (List String)
  | [] => return []
  | node :: nodes => do
    let first ← lines settings indent node
    return first ++ (← childLines settings indent nodes)

end

/-- A node in several lines of text. -/
def describe (settings : Settings) (node : Node) : Except Format.Refusal String := do
  return "\n".intercalate (← node.lines settings 0)

end Node

end Reckoner
