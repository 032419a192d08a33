import Mathlib.Algebra.Order.Group.Multiset
import Reckoner.Proofs.Evaluation.Alike
import Reckoner.Proofs.Reading.Shapes

/-!
# Flattened trees

Evaluation comes to what is in a node in one order: the operands before the operator, the
nodes nested in it, the operands behind, and the operator. Flattened in this order
(`Node.flatten`), a tree is what its run does one after another (`Eval.runEach_eq`).

These are the tokens of the text, each of them once: the operands in the order in which they
are read, and the operators behind their operands (`Node.readText_flattened`). Besides them
there is a multiplication for each operand right behind another one. How many of these there
are can be told from the tokens alone, by what is in front of each (`Front.products`). Brackets
are left aside: an opener can stay as the operator of its node, and a closer does not.

A step adds to what is in its node just what it takes (`Node.Begun.accounts`), and the accounts
of the parts of a reading add up (`Accounts.trans`).
-/

namespace Reckoner

open Text

/-! ## Flattening -/

namespace Node

mutual

/-- The operands and operators of a node, in the order of evaluation. -/
def flatten : Node → List Token
  | ⟨_, operator, prior, params, children⟩ =>
    prior.map .operand ++
      (flattenEach children ++ (params.map .operand ++ (operator.map .operator).toList))

def flattenEach : List Node → List Token
  | [] => []
  | node :: nodes => flatten node ++ flattenEach nodes

end

theorem flattenEach_append (nodes nodes' : List Node) :
    flattenEach (nodes ++ nodes') = flattenEach nodes ++ flattenEach nodes' := by
  induction nodes with
  | nil => rfl
  | cons node nodes ih => rw [List.cons_append, flattenEach, flattenEach, ih, List.append_assoc]

theorem flattenEach_singleton (node : Node) : flattenEach [node] = node.flatten := by
  rw [flattenEach, flattenEach, List.append_nil]

theorem flatten_of_isEmpty {node : Node} (h : node.isEmpty = true) : node.flatten = [] := by
  obtain ⟨state, operator, prior, params, children⟩ := node
  simp only [isEmpty, Bool.and_eq_true, Option.isNone_iff_eq_none, List.isEmpty_iff] at h
  obtain ⟨⟨⟨rfl, rfl⟩, rfl⟩, rfl⟩ := h
  rfl

/-- The state of a node is no part of what is flattened. -/
theorem flatten_with_state (node : Node) (state : NodeState) :
    ({ node with state := state } : Node).flatten = node.flatten := by
  cases node
  rfl

theorem flattenEach_markUnclosed (nodes : List Node) :
    flattenEach (markUnclosed nodes) = flattenEach nodes := by
  rw [markUnclosed]
  split
  · rename_i last hlast
    calc flattenEach (nodes.dropLast ++ [{ last with state := .errored }])
        = flattenEach (nodes.dropLast ++ [last]) := by
          rw [flattenEach_append, flattenEach_append, flattenEach_singleton, flattenEach_singleton,
            flatten_with_state]
      _ = flattenEach nodes := by rw [List.dropLast_append_getLast? last hlast]
  · rfl

end Node

/-! ## Running what is flattened -/

namespace Eval

variable (settings : Settings) (formula : Formula)

theorem push_cons (q : Quantity) (qs : List Quantity) :
    push (q :: qs) = (do push [q]; push qs) := by
  funext m
  change EStateM.Result.ok _ _ = EStateM.Result.ok _ _
  simp

variable [DigitLimit]

/-- Pushes an operand, or applies an operator. -/
def runToken : Token → Eval PUnit
  | .operand q => push [q]
  | .operator o => apply settings formula o

def runTokens : List Token → Eval PUnit
  | [] => return ⟨⟩
  | token :: tokens => do
    runToken settings formula token
    runTokens tokens

theorem runTokens_append (tokens tokens' : List Token) :
    runTokens settings formula (tokens ++ tokens') = (do
      runTokens settings formula tokens
      runTokens settings formula tokens') := by
  induction tokens with
  | nil => simp only [List.nil_append, runTokens, pure_bind]
  | cons token tokens ih => simp only [List.cons_append, runTokens, ih, bind_assoc]

theorem runTokens_operands (qs : List Quantity) :
    runTokens settings formula (qs.map .operand) = push qs := by
  induction qs with
  | nil => rfl
  | cons q qs ih => rw [List.map_cons, runTokens, ih, push_cons, runToken]

mutual

theorem runNode_eq : (node : Node) →
    runNode settings formula node = runTokens settings formula node.flatten
  | ⟨_, operator, prior, params, children⟩ => by
    rw [Node.flatten, runTokens_append, runTokens_append, runTokens_append, runTokens_operands,
      runTokens_operands, ← runEach_eq children]
    simp only [runNode]
    cases operator with
    | none => rfl
    | some o => simp only [Option.map_some, Option.toList_some, runTokens, bind_pure_unit, runToken]

/-- Running a tree does what is in it one after another. -/
theorem runEach_eq : (nodes : List Node) →
    runEach settings formula nodes = runTokens settings formula (Node.flattenEach nodes)
  | [] => rfl
  | node :: nodes => by
    rw [runEach, Node.flattenEach, runTokens_append, runNode_eq node, runEach_eq nodes]

end

end Eval

/-! ## Accounts of tokens -/

/-- The operator is a bracket. -/
def Operator.isBracket (o : Operator) : Bool :=
  o.arity == .groupOpen || o.arity == .groupClose

namespace Token

/-- The operands among the tokens, in their order. -/
def operands (tokens : List Token) : List Quantity :=
  tokens.filterMap fun
    | .operand q => some q
    | .operator _ => none

/-- The operators among the tokens that are no brackets, as often as they are there. -/
def operations (tokens : List Token) : Multiset Operator :=
  tokens.filterMap fun
    | .operand _ => none
    | .operator o => if o.isBracket then none else some o

variable {o : Operator} (tokens tokens' : List Token)

@[simp] theorem operands_nil : operands [] = [] := rfl

@[simp] theorem operands_append :
    operands (tokens ++ tokens') = operands tokens ++ operands tokens' :=
  List.filterMap_append

@[simp] theorem operations_nil : operations [] = 0 := rfl

theorem operations_bracket (h : o.isBracket = true) :
    operations (.operator o :: tokens) = operations tokens := by
  simp [operations, h]

@[simp] theorem operations_append :
    operations (tokens ++ tokens') = operations tokens + operations tokens' := by
  rw [operations, List.filterMap_append]
  rfl

end Token

/-- What is in front of the next token. -/
inductive Front
  /-- Nothing that takes an operand, or is multiplied with one. -/
  | apart
  /-- An operand that the next one is multiplied with. -/
  | operand
  /-- An operator that the next operand belongs to. -/
  | waiting

namespace Front

/-- What is in front of a text that continues the seed, if there is one. -/
def ofSeed : Option Quantity → Front
  | none => .apart
  | some _ => .operand

/-- What is in front behind the token. -/
def next : Front → Token → Front
  | .apart, .operand _ => .operand
  | _, .operand _ => .apart
  | _, .operator o =>
    match o.arity with
    | .binary | .assign | .convert => .waiting
    | _ => .apart

def after (front : Front) (tokens : List Token) : Front :=
  tokens.foldl next front

/-- How often the token is multiplied with what is in front of it. -/
def multiplies : Front → Token → Nat
  | .operand, .operand _ => 1
  | _, _ => 0

/-- How many operands are multiplied with the one right in front of them. -/
def products : Front → List Token → Nat
  | _, [] => 0
  | front, token :: tokens => front.multiplies token + products (front.next token) tokens

variable (front : Front) (tokens tokens' : List Token)

/-- No operand belongs to an operator that none has to follow. -/
theorem next_eq_apart {o : Operator}
    (h : o.arity = .unary ∨ o.arity = .separator ∨ o.arity = .groupOpen ∨ o.arity = .groupClose) :
    front.next (.operator o) = .apart := by
  rcases h with h | h | h | h <;> simp [next, h]

theorem after_append : front.after (tokens ++ tokens') = (front.after tokens).after tokens' :=
  List.foldl_append

theorem multiplies_operator (o : Operator) : front.multiplies (.operator o) = 0 := by
  cases front <;> rfl

theorem products_singleton (token : Token) : front.products [token] = front.multiplies token :=
  rfl

theorem products_append :
    front.products (tokens ++ tokens') =
      front.products tokens + (front.after tokens).products tokens' := by
  induction tokens generalizing front with
  | nil => exact (Nat.zero_add _).symm
  | cons token tokens ih =>
    rw [List.cons_append, products, products, ih, Nat.add_assoc]
    rfl

end Front

open Token (operands operations)

/-- What is flattened to `after` is what is flattened to `before` with the tokens added to it,
    which are met with the front, and with a multiplication for each product among them. -/
structure Accounts (front : Front) (tokens before after : List Token) : Prop where
  operands_eq : operands after = operands before ++ operands tokens
  operations_eq : operations after = operations before + operations tokens +
    Multiset.replicate (front.products tokens) .multiplication

namespace Accounts

open Token

variable {front : Front} {tokens tokens' before mid after : List Token}

theorem refl (front : Front) (before : List Token) : Accounts front [] before before where
  operands_eq := (List.append_nil _).symm
  operations_eq := by simp [Front.products]

theorem trans (h : Accounts front tokens before mid)
    (h' : Accounts (front.after tokens) tokens' mid after) :
    Accounts front (tokens ++ tokens') before after where
  operands_eq := by rw [h'.operands_eq, h.operands_eq, operands_append, List.append_assoc]
  operations_eq := by
    rw [h'.operations_eq, h.operations_eq, operations_append, front.products_append,
      Multiset.replicate_add]
    ac_rfl

/-- What is added to nothing is added anywhere in front of an operator. -/
theorem within (h : Accounts front tokens [] mid) (before : List Token) {tail : List Token}
    (htail : operands tail = []) :
    Accounts front tokens (before ++ tail) (before ++ (mid ++ tail)) where
  operands_eq := by
    simp only [operands_append, h.operands_eq, htail, operands_nil, List.nil_append,
      List.append_nil]
  operations_eq := by
    simp only [operations_append, h.operations_eq, operations_nil, zero_add]
    ac_rfl

theorem behind (h : Accounts front tokens [] after) (before : List Token) :
    Accounts front tokens before (before ++ after) := by
  have hwithin := h.within before operands_nil
  rwa [List.append_nil, List.append_nil] at hwithin

/-- A token that is no product is added as it is. -/
theorem token (before : List Token) {token : Token} (h : front.multiplies token = 0) :
    Accounts front [token] before (before ++ [token]) where
  operands_eq := operands_append _ _
  operations_eq := by
    rw [operations_append, Front.products_singleton, h]
    exact (add_zero (operations before + operations [token])).symm

/-- A bracket adds nothing. -/
theorem bracket (before : List Token) {o : Operator} (h : o.isBracket = true) :
    Accounts front [.operator o] before before where
  operands_eq := (List.append_nil _).symm
  operations_eq := by
    rw [operations_bracket _ h, Front.products_singleton, front.multiplies_operator]
    simp

/-- An operand that an operator waits for is taken in front of it. -/
theorem param (prior : List Quantity) (q : Quantity) (o : Operator) :
    Accounts .waiting [.operand q] (prior.map .operand ++ [.operator o])
      (prior.map .operand ++ [.operand q, .operator o]) := by
  have htoken : Accounts .waiting [.operand q] [] [.operand q] := .token [] rfl
  exact htoken.within _ rfl

/-- An operator is added behind the operands in front of it. -/
theorem operator (prior : List Quantity) (o : Operator) :
    Accounts front [.operator o] (prior.map .operand ++ [])
      (prior.map .operand ++ [.operator o]) := by
  rw [List.append_nil]
  exact .token _ (front.multiplies_operator o)

end Accounts

/-! ## Accounts of a step -/

namespace Node

/-- What a node that is read on with puts in front of the next token. -/
def front (node : Node) : Front :=
  match node.state, node.operator with
  | .number, none => .operand
  | .binary, _ | .convert, _ => .waiting
  | _, _ => .apart

/-- The node is read on with behind what is in front. A node nested below an operator has that
    in front of it until it takes its own one. -/
def Meets (front : Front) (node : Node) (text : List Char) : Prop :=
  front = node.front ∨
    front = .waiting ∧ node = blank .initial ∧ ∃ o, Node.ahead .initial text = .operator o

variable {node : Node} {r r' : Reader} {token : Option Token} {front : Front}

theorem front_blank {state : NodeState} (h : state = .initial ∨ state.isComplete = true) :
    (blank state).front = .apart := by
  rcases h with rfl | h
  · rfl
  · cases state <;> first | rfl | cases h

theorem Awaits.front_eq {state : NodeState} {o : Operator} (h : Awaits state o)
    (prior : List Quantity) : (⟨state, some o, prior, [], []⟩ : Node).front = .waiting := by
  rcases h with ⟨rfl, -⟩ | ⟨rfl, -⟩ <;> rfl

theorem Awaits.next_eq {state : NodeState} {o : Operator} (h : Awaits state o) (front : Front) :
    front.next (.operator o) = .waiting := by
  rcases h with ⟨-, h | h⟩ | ⟨-, h⟩ <;> simp [Front.next, h]

/-- What a step comes to accounts for the token that it takes. -/
def Turn.Accounted (front : Front) (tokens : List Token) (node : Node) (r' : Reader) :
    Turn → Prop
  | .done node' => Accounts front tokens node.flatten node'.flatten ∧
      (skipBlanks r'.rest = [] ∨ front.after tokens = .apart)
  | .again next => Accounts front tokens node.flatten next.flatten ∧
      Meets (front.after tokens) next (skipBlanks r'.rest)
  | .nest outer => Accounts front tokens node.flatten outer.flatten ∧
      Meets (front.after tokens) (blank .initial) (skipBlanks r'.rest) ∧
        outer.params = [] ∧ outer.children = []
  | .enter outer _ => Accounts front tokens node.flatten outer.flatten ∧
      front.after tokens = .apart ∧ outer.params = [] ∧ outer.children = []

theorem meets_blank {state : NodeState} (hstate : state = .initial ∨ state.isComplete = true)
    (hfront : front = .apart) {text : List Char} : Meets front (blank state) text :=
  .inl (hfront.trans (front_blank hstate).symm)

/-- In front of an operand stands what the node is read on with. -/
theorem Meets.front_eq (h : Meets front node (skipBlanks r.rest))
    (hahead : ∀ o, Node.ahead node.state (skipBlanks r.rest) ≠ .operator o) :
    front = node.front := by
  rcases h with hfront | ⟨-, rfl, o, ho⟩
  · exact hfront
  · exact absurd ho (hahead o)

/-- With anything read into it, a node has nothing else in front. -/
theorem Meets.front_eq_of_ne (h : Meets front node (skipBlanks r.rest))
    (hnode : node ≠ blank .initial) : front = node.front :=
  h.resolve_right fun hnested => hnode hnested.2.1

theorem Meets.assigned (h : Meets front node (skipBlanks r.rest))
    (hahead : Node.ahead node.state (skipBlanks r.rest) = .name) (text : List Char) :
    Meets front node text :=
  .inl (h.front_eq fun _ ho => nomatch hahead.symm.trans ho)

/-- An opener is added to its node as the operator, or not at all. -/
theorem accounts_openGroup (state : NodeState) (bound : Option Operator) (prior : List Quantity)
    {o : Operator} (h : o.arity = .groupOpen) :
    Accounts front [.operator o] (flatten ⟨state, bound, prior, [], []⟩)
      (flatten (openGroup ⟨state, bound, prior, [], []⟩ o)) := by
  have hbracket : o.isBracket = true := by simp [Operator.isBracket, h]
  rw [openGroup]
  cases o.action.isReserved with
  | false => exact .bracket _ hbracket
  | true =>
    cases bound with
    | some _ => exact .bracket _ hbracket
    | none => exact .operator prior o

theorem Begun.accounts (h : Begun node (skipBlanks r.rest))
    (hmeets : Meets front node (skipBlanks r.rest)) {turn : Turn}
    (hstep : Advances r r' node token turn) : turn.Accounted front token.toList node r' := by
  cases hstep with
  | ended hend => exact ⟨.refl _ _, .inl hend⟩
  | assigned hahead => exact ⟨.refl _ _, hmeets.assigned hahead _⟩
  | @operand state q hahead =>
    cases h with
    | blank hstate =>
      obtain rfl : front = .apart := (hmeets.front_eq hahead).trans (front_blank hstate)
      exact ⟨.token [] rfl, .inl rfl⟩
  | product =>
    obtain rfl : front = .operand := hmeets.front_eq_of_ne nofun
    exact ⟨⟨rfl, rfl⟩, .inr rfl⟩
  | @param state o prior q hawaits =>
    obtain rfl : front = .waiting := (hmeets.front_eq_of_ne nofun).trans (hawaits.front_eq prior)
    exact ⟨.param prior q o, .inr rfl⟩
  | @awaits state state' o prior hawaits =>
    exact ⟨.operator prior o, .inl ((hawaits.next_eq front).trans (hawaits.front_eq prior).symm)⟩
  | @applies state o prior harity hgroup =>
    exact ⟨.operator prior o, .inl (front.next_eq_apart (.inl harity))⟩
  | @applied state o prior harity =>
    exact ⟨.operator prior o, .inr (front.next_eq_apart (harity.imp_right .inl))⟩
  | @closed state o prior harity =>
    have hbracket : o.isBracket = true := by simp [Operator.isBracket, harity]
    exact ⟨.bracket _ hbracket, .inr (front.next_eq_apart (.inr (.inr (.inr harity))))⟩
  | @opened state bound o prior _ harity =>
    exact ⟨accounts_openGroup state bound prior harity,
      front.next_eq_apart (.inr (.inr (.inl harity))), rfl, rfl⟩
  | @nested o prior hawaits hahead =>
    obtain rfl : front = .waiting := (hmeets.front_eq_of_ne nofun).trans (hawaits.front_eq prior)
    exact ⟨.refl _ _, .inr ⟨rfl, rfl, hahead⟩, rfl, rfl⟩

/-! ## Accounts of a reading -/

theorem flattenEach_unless_isEmpty (node : Node) :
    flattenEach (if node.isEmpty then [] else [node]) = node.flatten := by
  split
  · rename_i hempty
    rw [flatten_of_isEmpty hempty, flattenEach]
  · exact flattenEach_singleton node

/-- What is nested in a node adds to it what is added to nothing. -/
theorem accounts_children {outer : Node} {children : List Node} {tokens : List Token}
    (hparams : outer.params = []) (hchildren : outer.children = [])
    (h : Accounts front tokens [] (flattenEach children)) (state : NodeState) :
    Accounts front tokens outer.flatten
      (flatten { outer with state := state, children := children }) := by
  obtain ⟨state₀, operator, prior, params, children₀⟩ := outer
  dsimp only at hparams hchildren
  subst hparams hchildren
  have htail : operands (operator.map Token.operator).toList = [] := by cases operator <;> rfl
  exact h.within _ htail

/-- What the nodes that the part is read into account for. -/
def Part.Accounted (part : Part) (r : Reader) (tokens : List Token) (nodes : List Node)
    (r' : Reader) : Prop :=
  match part with
  | .node node => ∀ front, Begun node (skipBlanks r.rest) → Meets front node (skipBlanks r.rest) →
    Accounts front tokens node.flatten (flattenEach nodes) ∧
      (skipBlanks r'.rest = [] ∨ front.after tokens = .apart)
  | .group _ state before => ∀ front,
    (skipBlanks r.rest = [] ∨ state = .initial ∨ state.isComplete = true) →
      (skipBlanks r.rest = [] ∨ front = .apart) →
        Accounts front tokens (flattenEach before) (flattenEach nodes) ∧
          (skipBlanks r'.rest = [] ∨ front.after tokens = .apart)
  | .line node => ∀ front, Begun node (skipBlanks r.rest) → Meets front node (skipBlanks r.rest) →
    Accounts front tokens node.flatten (flattenEach nodes)

section

variable [DigitLimit]

/-- The accounts of the parts of a reading add up to that of all. -/
theorem Reads.accounted {part : Part} {tokens : List Token} {nodes : List Node}
    (h : Reads part r tokens nodes r') : part.Accounted r tokens nodes r' := by
  induction h with
  | done hturn =>
    intro front hbegun hmeets
    obtain ⟨hnode, hend⟩ := hbegun.accounts hmeets (hbegun.advances hturn)
    rw [flattenEach_singleton]
    exact ⟨hnode, hend⟩
  | again hturn _ ih =>
    intro front hbegun hmeets
    have hstep := hbegun.advances hturn
    obtain ⟨hnext, hmeets⟩ := hbegun.accounts hmeets hstep
    obtain ⟨hnode, hend⟩ := ih _ (hbegun.next hstep) hmeets
    rw [Front.after_append]
    exact ⟨hnext.trans hnode, hend⟩
  | nest hturn _ ih =>
    intro front hbegun hmeets
    obtain ⟨houter, hmeets, hparams, hchildren⟩ :=
      hbegun.accounts hmeets (hbegun.advances hturn)
    -- The operator that the outer node waits with is in front of the nested one.
    obtain ⟨hchild, hend⟩ := ih _ (.blank (.inl rfl)) hmeets
    rw [flattenEach_singleton, nesting, hchildren, Front.after_append]
    exact ⟨houter.trans (accounts_children hparams hchildren hchild .function), hend⟩
  | @enter _ outer _ _ _ _ _ _ hturn _ ih =>
    intro front hbegun hmeets
    obtain ⟨houter, hfront, hparams, hchildren⟩ :=
      hbegun.accounts hmeets (hbegun.advances hturn)
    -- Behind the opener, the first node of the group has nothing in front.
    obtain ⟨hgroup, hend⟩ := ih _ (.inr (.inl rfl)) (.inr hfront)
    rw [hchildren] at hgroup
    rw [flattenEach_singleton, Front.after_append]
    exact ⟨houter.trans (accounts_children hparams hchildren hgroup outer.state), hend⟩
  | unclosed _ =>
    intro front _ _
    rw [flattenEach_markUnclosed]
    exact ⟨.refl _ _, .inl rfl⟩
  | closed hmore _ _ ih =>
    intro front hstate hfront
    have hblank := hstate.resolve_left hmore
    have hapart := hfront.resolve_left hmore
    obtain ⟨hnode, hend⟩ := ih _ (.blank hblank) (meets_blank hblank hapart)
    rw [flattenEach_append]
    exact ⟨hnode.behind _, hend⟩
  | within hmore hread _ _ ihNode ihGroup =>
    intro front hstate hfront
    have hblank := hstate.resolve_left hmore
    have hapart := hfront.resolve_left hmore
    obtain ⟨hnode, hend⟩ := ihNode _ (.blank hblank) (meets_blank hblank hapart)
    -- A node that is complete leaves nothing in front of the next one.
    have hcomplete := hread.complete (.blank hblank)
    obtain ⟨hgroup, hend⟩ := ihGroup _ (hcomplete.imp_right .inr) hend
    rw [flattenEach_append] at hgroup
    rw [Front.after_append]
    exact ⟨(hnode.behind _).trans hgroup, hend⟩
  | last _ _ ih =>
    intro front hbegun hmeets
    have hnode := (ih front hbegun hmeets).1
    rw [flattenEach_unless_isEmpty]
    rwa [flattenEach_singleton] at hnode
  | next hread hmore _ ihNode ihLine =>
    intro front hbegun hmeets
    obtain ⟨hnode, hend⟩ := ihNode _ hbegun hmeets
    have hcomplete := (hread.complete hbegun).resolve_left hmore
    have hapart := hend.resolve_left hmore
    have hline := ihLine _ (.blank (.inr hcomplete)) (meets_blank (.inr hcomplete) hapart)
    rw [flattenEach_append, flattenEach_unless_isEmpty]
    rw [flattenEach_singleton] at hnode
    exact hnode.trans (hline.behind _)

/-- A tree is run by what it is flattened to. This has the operands in the order in which they
    are read, behind the seed, and the operators other than brackets, with a multiplication for
    each operand right behind another one. -/
theorem readText_flattened {seed : Option Quantity} {nodes : List Node}
    (h : (readText seed r).1 = .ok nodes) :
    (∀ settings formula, Eval.runEach settings formula nodes =
      Eval.runTokens settings formula (flattenEach nodes)) ∧
    operands (flattenEach nodes) = seed.toList ++ operands (tokens seed r) ∧
    operations (flattenEach nodes) = operations (tokens seed r) +
      Multiset.replicate ((Front.ofSeed seed).products (tokens seed r)) .multiplication := by
  have hfront : Front.ofSeed seed = (begunWith seed).front := by cases seed <;> rfl
  have hline := (reads_readText h).accounted _ (begun_begunWith seed _) (.inl hfront)
  refine ⟨fun settings formula => Eval.runEach_eq settings formula nodes, ?_, ?_⟩
  · rw [hline.operands_eq]
    cases seed <;> rfl
  · rw [hline.operations_eq]
    cases seed <;> exact congrArg (· + _) (zero_add _)

end

/-- A number and another one right behind it, within a group. -/
theorem readText_flattened_product :
    let r : Reader := ⟨"(2 3)".toList, Store.initial, []⟩
    ∃ nodes, (readText none r).1 = .ok nodes ∧
      operands (flattenEach nodes) = operands (tokens none r) ∧
      operations (flattenEach nodes) = operations (tokens none r) + {.multiplication} := by
  intro r
  have hread : (readText none r).1.isOk = true := by decide +kernel
  have hproducts : (Front.ofSeed none).products (tokens none r) = 1 := by decide +kernel
  obtain ⟨nodes, hnodes⟩ := exists_of_isOk hread
  obtain ⟨-, hoperands, hoperations⟩ := readText_flattened hnodes
  rw [hproducts] at hoperations
  exact ⟨nodes, hnodes, hoperands, hoperations⟩

end Node

end Reckoner
