import Mathlib.Algebra.Field.Basic
import Reckoner.Proofs.Conversion.Chain

/-!
# Exact conversions

What a rule would make of a number if it were computed without rounding, in any
field: a numeral is the fraction it is written as, names have given values, and the
four operations are those of the field (`Measure.Rule.exactValue?`). It is the tree the
formula is read into that is given this meaning, behind the number that it
continues, so that operators apply in the order in which they are run.

For a chain, this is taking its signs one after another (`Chain.exactValue?`,
`Chain.exactNodes_nodes`).
-/

namespace Reckoner

open Text

variable {K : Type*} [Field K]

/-! ## Operands and operations -/

/-- The number that a numeral is written as. -/
def Numeral.exact (n : Numeral) : K :=
  let places := n.places.getD []
  let size : K := (valueIn 10 (n.whole ++ places) : K) / 10 ^ places.length
  if n.negative then -size else size

/-- The number that an operand is: the value of its name if it has one, and else
    what it is written as. -/
def Quantity.exactValue? (values : String → Option K) (q : Quantity) : Option K :=
  if q.isVariable then values q.name
  else
    let (n, rest) := Numeral.read q.literal.toList
    if n.whole.isEmpty || !rest.isEmpty then none else some n.exact

variable [DecidableEq K]

/-- The four operations; there is no quotient by zero. -/
def Arithmetic.exactValue? (a b : K) : Arithmetic → Option K
  | add => some (a + b)
  | sub => some (a - b)
  | mul => some (a * b)
  | div => if b = 0 then none else some (a / b)
  | _ => none

/-! ## Trees -/

namespace Node

/-- Numbers pushed on others, the first one first. -/
def exactPush (values : String → Option K) (qs : List Quantity) (stack : List K) :
    Option (List K) :=
  qs.foldlM (fun stack q => (q.exactValue? values).map (· :: stack)) stack

/-- An operator applied to the two numbers on top. -/
def exactApply (o : Operator) : List K → Option (List K)
  | right :: left :: below =>
    match o.action with
    | .arithmetic op => (op.exactValue? left right).map (· :: below)
    | _ => none
  | _ => none

mutual

/-- Runs a node on exact numbers. -/
def exactNode (values : String → Option K) : Node → List K → Option (List K)
  | ⟨_, operator, prior, params, children⟩, stack => do
    let stack ← exactPush values prior stack
    let stack ← exactNodes values children stack
    let stack ← exactPush values params stack
    match operator with
    | some o => exactApply o stack
    | none => return stack

/-- Runs nodes on exact numbers, one after another. -/
def exactNodes (values : String → Option K) : List Node → List K → Option (List K)
  | [], stack => some stack
  | node :: nodes, stack => do exactNodes values nodes (← exactNode values node stack)

end

end Node

/-- The values of the names in a formula: that of `pi`, and that which the formula
    continues, whose name is empty, as that of no name in a text is. -/
def Measure.Rule.values (pi x : K) (name : String) : Option K :=
  if name == "" then some x else if name == "pi" then some pi else none

/-- What a rule makes of an exact number, for the given value of `pi`. -/
def Measure.Rule.exactValue? [DigitLimit] (pi : K) (r : Measure.Rule) (x : K) : Option K :=
  match Node.readText (some (.unset "")) ⟨r.formula.toList, Store.initial, []⟩ with
  | (.ok nodes, _) => do (← Node.exactNodes (values pi x) nodes []).head?
  | (.error _, _) => none

/-! ## Chains -/

variable {values : String → Option K}

/-- The number that an operand of a chain is. -/
def Atom.exactValue? (values : String → Option K) : Atom → Option K
  | literal l => some l.numeral.exact
  | constant c _ => values c.name

omit [DecidableEq K] in
theorem Atom.exactValue?_quantity {a : Atom} (h : a.isBare = true) :
    a.quantity.exactValue? values = a.exactValue? values := by
  cases a with
  | constant c hc => rfl
  | literal l =>
    have hquantity : l.quantity = .ofNumeral l.numeral := by
      simp [Literal.quantity, (isBare_literal.1 h).1]
    have hread : Numeral.read (l.numeral.text ++ []) = (l.numeral, []) :=
      Numeral.read_text l.whole_ne_nil l.isDigit_whole l.isDigit_places fun _ h => by cases h
    rw [List.append_nil] at hread
    simp [quantity, exactValue?, hquantity, Quantity.ofNumeral, Quantity.exactValue?, hread,
      l.whole_ne_nil]

/-- A sign between a number and its operand. -/
def Link.exactValue? (values : String → Option K) (l : Link) (left : K) : Option K := do
  l.sign.arithmetic.exactValue? left (← l.operand.exactValue? values)

/-- The signs of a chain, one after another. -/
def Chain.exactValue? (values : String → Option K) (c : Chain) (x : K) : Option K :=
  c.foldlM (fun left l => l.exactValue? values left) x

theorem Link.exactNode_node (l : Link) {prior : List Quantity} {left : K} {stack below : List K}
    (h : Node.exactPush values prior stack = some (left :: below)) :
    Node.exactNode values (l.node prior) stack = (l.exactValue? values left).map (· :: below) := by
  have haction : l.sign.entry.action = .arithmetic l.sign.arithmetic := l.sign.action_entry
  have hoperand : Node.exactPush values [l.operand.quantity] (left :: below) =
      (l.operand.exactValue? values).map (· :: left :: below) := by
    simp [Node.exactPush, Atom.exactValue?_quantity l.isBare]
  simp only [node, Node.exactNode, Node.exactNodes, h, hoperand, exactValue?, Option.bind_eq_bind,
    Option.bind_some]
  cases l.operand.exactValue? values with
  | none => rfl
  | some right => simp [Node.exactApply, haction]

/-- Behind the first node, the signs are taken one after another. -/
theorem Chain.exactNodes_map (c : Chain) (left : K) :
    Node.exactNodes values (c.map (Link.node [])) [left] =
      (c.exactValue? values left).map ([·]) := by
  induction c generalizing left with
  | nil => rfl
  | cons l c ih =>
    have hnode : Node.exactNode values (l.node []) [left] = _ := l.exactNode_node rfl
    simp only [List.map_cons, Node.exactNodes, hnode, exactValue?, List.foldlM_cons,
      Option.bind_eq_bind]
    cases l.exactValue? values left with
    | none => rfl
    | some mid => exact ih mid

/-- The first node begins with the number that the chain continues. -/
theorem Chain.exactNodes_nodes (c : Chain) {seed : Quantity} {x : K}
    (hseed : seed.exactValue? values = some x) :
    Node.exactNodes values (nodes seed c) [] = (c.exactValue? values x).map ([·]) := by
  have hpush : Node.exactPush values [seed] [] = some [x] := by simp [Node.exactPush, hseed]
  cases c with
  | nil =>
    have hnone : Node.exactPush values [] [x] = some [x] := rfl
    simp [nodes, Node.seeded, Node.exactNodes, Node.exactNode, hpush, hnone, exactValue?]
  | cons l c =>
    have hnode : Node.exactNode values (l.node [seed]) [] = _ := l.exactNode_node hpush
    simp only [nodes, Node.exactNodes, hnode, exactValue?, List.foldlM_cons, Option.bind_eq_bind]
    cases l.exactValue? values x with
    | none => rfl
    | some mid => exact exactNodes_map c mid

/-- A rule makes of a number what its chain does. -/
theorem Measure.Rule.exactValue?_eq [DigitLimit] {r : Measure.Rule} (hr : r ∈ table) (pi x : K) :
    r.exactValue? pi x = r.chain.exactValue? (Rule.values pi x) x := by
  have hread : Node.readText (some (.unset "")) ⟨r.formula.toList, Store.initial, []⟩ =
      (.ok (Chain.nodes (.unset "") r.chain), ⟨[], Store.initial, []⟩) := by
    rw [← r.text_chain hr]
    exact Chain.readText_text Store.holdsConstants_initial _ _
  have hseed : (Quantity.unset "").exactValue? (Rule.values pi x) = some x := rfl
  simp only [exactValue?, hread, Chain.exactNodes_nodes r.chain hseed]
  cases r.chain.exactValue? (Rule.values pi x) x <;> rfl

end Reckoner
