import Reckoner.Name
import Reckoner.Node.Basic

/-!
# Building the tree of a line

A line is read strictly from left to right, without precedence: an operator
takes what has been read before it and, where it stands between operands, the
one operand behind it; `2*(3+4)*5` is `((2*(3+4))*5)`. Two operands in a row
are multiplied.

A node starts in the state the one before it ended in. That is why `-4` behind
a complete term subtracts four, while in front of one, or behind an operator
that waits for its operand, it is a number (`ahead`).

An operator found while another one waits for its operand is nested below it,
and so are the nodes of a group. A group that the line ends in is left open with
a warning. Inline assignments take effect at once, on the store that reading
goes along with (`Reader`), also when the line turns out unreadable behind them.
-/

namespace Reckoner

/-- What reading a line goes along with. -/
structure Reader where
  /-- The text ahead. -/
  rest : List Char
  store : Store
  messages : List Message

/-- A step of building a tree, which may fail. -/
abbrev Build := EStateM Snag Reader

namespace Build

/-- Reads from the text ahead. -/
def scan {α : Type} (s : Scan α) : Build α := fun reader =>
  match s reader.rest with
  | .ok a rest => .ok a { reader with rest := rest }
  | .error snag rest => .error snag { reader with rest := rest }

/-- Passes blanks, and tells what is ahead then. -/
def ahead : Build (List Char) := do
  scan Scan.skipBlanks
  return (← get).rest

/-- Reads a name: an operand, or an assignment, which takes effect. -/
def mention [DigitLimit] : Build (Option Quantity) := do
  let store := (← get).store
  match ← scan (Quantity.readName store) with
  | .operand q => return some q
  | .assignment q =>
    match store.assign q with
    | .ok store =>
      modify fun reader => { reader with store := store }
      return none
    | .error f => throw (.failure f)

/-- Warns of a group that the line ends in. -/
def warnUnclosed (opener : Operator) : Build PUnit :=
  modify fun reader =>
    { reader with messages := reader.messages ++
        [⟨.warning, some .unbalancedGroup, s!"No closing bracket for '{opener.spelling}'"⟩] }

end Build

namespace Node

/-! ## Adding to a node -/

/-- What a node is read on with. -/
inductive Ahead
  /-- The unit to convert into. -/
  | target
  | number
  | operator (o : Operator)
  | name

/-- What a node in the given state is read on with. A sign belongs to a number
    in front of a term and where an operand has to follow, and is an operator
    elsewhere. -/
def ahead (state : NodeState) (text : List Char) : Ahead :=
  if state = .convert then .target
  else if Text.startsNumber text && (state = .initial || state = .binary) then .number
  else
    match Operator.begins? text with
    | some o => .operator o
    | none => if Text.startsNumber text then .number else .name

/-- The node with one more operand, and whether it is complete. -/
def addOperand (node : Node) (q : Quantity) : Node × Bool :=
  if node.state = .binary || node.state = .convert then
    ({ node with params := node.params ++ [q], state := .parsed }, true)
  else if node.state = .number && node.operator.isNone && !node.prior.isEmpty &&
      node.params.isEmpty then
    ({ node with operator := some .multiplication, params := node.params ++ [q], state := .parsed },
      true)
  else ({ node with prior := node.prior ++ [q], state := .number }, false)

/-- A group is opened at the head of the text. -/
def opensGroup (text : List Char) : Bool :=
  match Operator.begins? text with
  | some o => o.arity == .groupOpen
  | none => false

/-- The node with an operator that opens no group, in front of the given text,
    and whether it is complete. -/
def addOperator (node : Node) (o : Operator) (text : List Char) : Node × Bool :=
  match o.arity with
  | .binary | .assign => ({ node with operator := some o, state := .binary }, false)
  | .unary =>
    if opensGroup text then ({ node with operator := some o, state := .unary }, false)
    else ({ node with operator := some o, state := .function }, true)
  | .convert => ({ node with operator := some o, state := .convert }, false)
  | .groupOpen => ({ node with state := .paren }, true)
  | .groupClose => ({ node with state := .closeParen }, true)
  | .separator => ({ node with operator := some o, state := .function }, true)

/-- The node with a group opened in it. A reserved opener is the operator of a
    node that has none. -/
def openGroup (node : Node) (o : Operator) : Node :=
  { node with
    operator := if o.action.isReserved then node.operator.or (some o) else node.operator
    state := .paren }

/-- The nodes with the last one marked as left open. -/
def markUnclosed (nodes : List Node) : List Node :=
  match nodes.getLast? with
  | some last => nodes.dropLast ++ [{ last with state := .errored }]
  | none => nodes

/-- What all of the nodes have in common, whatever their state is. -/
theorem forall_mem_markUnclosed {P : Node → Prop} {nodes : List Node} (h : ∀ n ∈ nodes, P n)
    (herrored : ∀ n, P n → P { n with state := .errored }) : ∀ n ∈ markUnclosed nodes, P n := by
  rw [markUnclosed]
  split
  · rename_i last hlast
    have hlast := herrored last (h last (List.mem_of_getLast? hlast))
    exact List.forall_mem_append.2
      ⟨fun n hn => h n (List.dropLast_subset _ hn), List.forall_mem_singleton.2 hlast⟩
  · exact h

/-- The node takes an operator itself, and does not nest it. -/
def takesOperator (node : Node) : Bool :=
  node.operator.isNone || node.state = .unary

/-- The node with a complete node nested in it, behind those before. -/
def nesting (node child : Node) : Node :=
  { node with children := node.children ++ [child], state := .function }

/-! ## Reading nodes -/

/-- What becomes of a node in one step of reading. -/
inductive Turn
  /-- It is complete, or the text has ended. -/
  | done (node : Node)
  /-- It is read on with. -/
  | again (node : Node)
  /-- It is complete with the node nested in it, which comes next. -/
  | nest (node : Node)
  /-- It is complete with the nodes of the group opened in it, which come
      next. -/
  | enter (node : Node) (opener : Operator)

/-- The step that leaves a node complete or not. -/
def Turn.of : Node × Bool → Turn
  | (node, true) => done node
  | (node, false) => again node

/-- Reads on with a node by what is ahead of it. -/
def proceed [DigitLimit] (node : Node) : Ahead → Build Turn
  | .target => do return .of (node.addOperand (← Build.scan Quantity.readTarget))
  | .number => do return .of (node.addOperand (← Build.scan Quantity.readLiteral))
  | .name => do
    match ← Build.mention with
    | none => return .again node
    | some q => return .of (node.addOperand q)
  | .operator o => do
    if node.takesOperator then
      Build.scan (Scan.drop o.spelling.length)
      let text ← Build.ahead
      if o.arity = .groupOpen then return .enter (node.openGroup o) o
      else return .of (node.addOperator o text)
    else return .nest node

/-- Reads on with a node by one step, if the text goes on. -/
def turn [DigitLimit] (node : Node) : Build Turn := do
  let text ← Build.ahead
  if text.isEmpty then return .done node
  else node.proceed (ahead node.state text)

/-- What follows a step of reading a node, given how nodes are read on with and
    how the nodes of a group are read behind others. -/
def Turn.followed (readOn : Node → Build Node)
    (readGroup : Operator → List Node → Build (List Node)) : Turn → Build Node
  | done node => return node
  | again node => readOn node
  | nest node => return node.nesting (← readOn (blank .initial))
  | enter node o => return { node with children := ← readGroup o node.children }

mutual

/-- Reads on with a node until it is complete or the text ends, in at most the
    given number of steps. -/
def readOn [DigitLimit] : (steps : Nat) → Node → Build Node
  | 0, node => return node
  | steps + 1, node => do
    (← node.turn).followed (readOn steps) fun o => readGroup steps o .initial

/-- Reads the nodes of a group, behind those read before, until it is closed or
    the text ends, in at most the given number of steps. -/
def readGroup [DigitLimit] :
    (steps : Nat) → (opener : Operator) → NodeState → List Node → Build (List Node)
  | 0, _, _, nodes => return nodes
  | steps + 1, opener, state, nodes => do
    let text ← Build.ahead
    if text.isEmpty then
      Build.warnUnclosed opener
      return markUnclosed nodes
    else
      let node ← readOn steps (blank state)
      if node.state = .closeParen then return nodes ++ [node]
      else readGroup steps opener node.state (nodes ++ [node])

end

/-- More steps than reading a text of this length can take: three for every
    character, as a node, the node nested in it and its group begin at the same
    one. -/
def enoughSteps (text : List Char) : Nat :=
  3 * (text.length + 1)

/-- Reads the nodes of a line, of at most the given number, beginning with one
    already begun. -/
def readLine [DigitLimit] : (nodes : Nat) → Node → Build (List Node)
  | 0, _ => return []
  | nodes + 1, node => do
    let node ← readOn (enoughSteps (← get).rest) node
    let read := if node.isEmpty then [] else [node]
    let text ← Build.ahead
    if text.isEmpty then return read
    else return read ++ (← readLine nodes (blank node.state))

/-- Builds the tree of the text ahead, continuing the seed if there is one. -/
def build [DigitLimit] (seed : Option Quantity) : Build (List Node) := do
  let first := match seed with
    | some q => seeded q
    | none => blank .initial
  readLine ((← get).rest.length + 1) first

/-- Reads the text ahead into a tree, continuing the seed if there is one. Where
    it cannot be read, the last message says why; a fault says nothing. -/
def readText [DigitLimit] (seed : Option Quantity) (reader : Reader) :
    Except Halt (List Node) × Reader :=
  match build seed reader with
  | .ok nodes reader => (.ok nodes, reader)
  | .error (.failure f) reader =>
    (.error .failed, { reader with messages := reader.messages ++ [f.message] })
  | .error (.fault f) reader => (.error (.fault f), reader)

theorem build_of_readText [DigitLimit] {seed : Option Quantity} {r : Reader} {nodes : List Node}
    (h : (readText seed r).1 = .ok nodes) : build seed r = .ok nodes (readText seed r).2 := by
  rw [readText] at h ⊢
  split at h <;> cases h
  assumption

end Node

end Reckoner
