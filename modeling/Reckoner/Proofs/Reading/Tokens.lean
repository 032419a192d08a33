import Reckoner.Proofs.Reading.Places

/-!
# The tokens of a reading

What reading takes off the text at its places, in their order, are its tokens: operands and
operators (`Node.tokens`). An inline assignment is no token, and at the place where an operator
is left to a nested node there is none yet.

A reading that gives nodes is derived here along with the tokens that it takes and the nodes
that they end up in (`Node.Reads`), one rule for each way in which a node, a group or a line
goes on. What relates the text to its tree is shown by induction on this.
-/

namespace Reckoner

open Text Build

/-- What is taken off the text at one place. -/
inductive Token
  | operand (q : Quantity)
  | operator (o : Operator)

namespace Node

/-! ## Tokens -/

variable [DigitLimit]

/-- What a step of reading on with the node takes off the text. -/
def token? (node : Node) (r : Reader) : Option Token :=
  let text := skipBlanks r.rest
  if text.isEmpty then none
  else
    match Node.ahead node.state text with
    | .target => match Quantity.readTarget text with
      | .ok q _ => some (.operand q)
      | .error .. => none
    | .number => match Quantity.readLiteral text with
      | .ok q _ => some (.operand q)
      | .error .. => none
    | .name => match Quantity.readName r.store text with
      | .ok (.operand q) _ => some (.operand q)
      | _ => none
    | .operator o => if node.takesOperator then some (.operator o) else none

/-- The tokens that are taken at places, in their order. -/
def tokensAt (places : List (Node × Reader)) : List Token :=
  places.filterMap fun place => place.1.token? place.2

/-- The tokens of the text ahead, in the order in which building a tree takes them. -/
def tokens (seed : Option Quantity) (r : Reader) : List Token :=
  tokensAt (places seed r)

theorem tokensAt_nil : tokensAt [] = [] := rfl

theorem tokensAt_cons (node : Node) (r : Reader) (places : List (Node × Reader)) :
    tokensAt ((node, r) :: places) = (node.token? r).toList ++ tokensAt places := by
  rw [tokensAt, List.filterMap_cons]
  cases node.token? r <;> rfl

theorem tokensAt_append (places places' : List (Node × Reader)) :
    tokensAt (places ++ places') = tokensAt places ++ tokensAt places' :=
  List.filterMap_append

/-- What a step does that takes the token. -/
inductive Took (node : Node) (r : Reader) : Option Token → Turn → Reader → Prop
  | ended : skipBlanks r.rest = [] → Took node r none (.done node) { r with rest := [] }
  | operand {q : Quantity} {rest : List Char} :
    (∀ o, Node.ahead node.state (skipBlanks r.rest) ≠ .operator o) →
      Took node r (some (.operand q)) (.of (node.addOperand q)) { r with rest := rest }
  | assigned {store : Store} {rest : List Char} :
    Node.ahead node.state (skipBlanks r.rest) = .name →
      Took node r none (.again node) { r with rest := rest, store := store }
  | operator {o : Operator} {rest : List Char} :
    Node.ahead node.state (skipBlanks r.rest) = .operator o → node.takesOperator = true →
      o.arity ≠ .groupOpen → skipBlanks rest = rest →
      Took node r (some (.operator o)) (.of (node.addOperator o rest)) { r with rest := rest }
  | opened {o : Operator} {rest : List Char} :
    Node.ahead node.state (skipBlanks r.rest) = .operator o → node.takesOperator = true →
      o.arity = .groupOpen →
      Took node r (some (.operator o)) (.enter (node.openGroup o) o) { r with rest := rest }
  | nested {o : Operator} :
    Node.ahead node.state (skipBlanks r.rest) = .operator o → node.takesOperator = false →
      Took node r none (.nest node) { r with rest := skipBlanks r.rest }

theorem ends_turn_took (node : Node) (r : Reader) :
    Ends node.turn r (fun turn r' => Took node r (node.token? r) turn r') fun _ _ => True := by
  refine ends_bind.2 (ends_ahead.2 ?_)
  rw [token?]
  by_cases hend : skipBlanks r.rest = []
  · rw [hend]
    exact .ended hend
  have hmore : (skipBlanks r.rest).isEmpty = false := by simpa using hend
  simp only [hmore, Bool.false_eq_true, if_false]
  cases hahead : Node.ahead node.state (skipBlanks r.rest) with
  | target | number =>
    refine ends_bind.2 (ends_scan.2 (ends_iff.2 ⟨fun q rest hread => ?_, fun _ _ _ => trivial⟩))
    dsimp only at hread ⊢
    rw [hread]
    exact .operand fun o h => nomatch hahead.symm.trans h
  | name =>
    refine ends_bind.2 (ends_bind.2 (ends_get.2 (ends_bind.2 (ends_scan.2 (ends_iff.2
      ⟨fun mentioned rest hread => ?_, fun _ _ _ => trivial⟩)))))
    dsimp only at hread ⊢
    rw [hread]
    cases mentioned with
    | operand q => exact .operand fun o h => nomatch hahead.symm.trans h
    | assignment q =>
      dsimp only
      split
      · exact .assigned hahead
      · trivial
  | operator o =>
    rw [proceed]
    cases htakes : node.takesOperator with
    | false => exact .nested hahead htakes
    | true =>
      refine ends_bind.2 (ends_scan.2 (ends_modify.2 (ends_bind.2 (ends_ahead.2 ?_))))
      split
      · rename_i hopens
        exact .opened hahead htakes hopens
      · rename_i hopens
        exact .operator hahead htakes hopens (skipBlanks_skipBlanks _)

/-! ## Readings -/

/-- The warning of a group that the line ends in. -/
def unclosedWarning (opener : Operator) : Message :=
  ⟨.warning, some .unbalancedGroup, s!"No closing bracket for '{opener.spelling}'"⟩

/-- Reading the part takes the tokens, and gives the nodes. -/
inductive Reads : Part → Reader → List Token → List Node → Reader → Prop
  | done {node node' : Node} {r r' : Reader} :
    node.turn r = .ok (.done node') r' →
      Reads (.node node) r (node.token? r).toList [node'] r'
  | again {node next node' : Node} {r₀ r r' : Reader} {tokens : List Token} :
    node.turn r₀ = .ok (.again next) r → Reads (.node next) r tokens [node'] r' →
      Reads (.node node) r₀ ((node.token? r₀).toList ++ tokens) [node'] r'
  | nest {node outer child : Node} {r₀ r r' : Reader} {tokens : List Token} :
    node.turn r₀ = .ok (.nest outer) r → Reads (.node (blank .initial)) r tokens [child] r' →
      Reads (.node node) r₀ ((node.token? r₀).toList ++ tokens) [outer.nesting child] r'
  | enter {node outer : Node} {opener : Operator} {r₀ r r' : Reader} {tokens : List Token}
    {children : List Node} :
    node.turn r₀ = .ok (.enter outer opener) r →
      Reads (.group opener .initial outer.children) r tokens children r' →
      Reads (.node node) r₀ ((node.token? r₀).toList ++ tokens)
        [{ outer with children := children }] r'
  | unclosed {opener : Operator} {state : NodeState} {nodes : List Node} {r : Reader} :
    skipBlanks r.rest = [] →
      Reads (.group opener state nodes) r [] (markUnclosed nodes)
        { r with rest := [], messages := r.messages ++ [unclosedWarning opener] }
  | closed {opener : Operator} {state : NodeState} {nodes : List Node} {node : Node}
    {r r' : Reader} {tokens : List Token} :
    skipBlanks r.rest ≠ [] →
      Reads (.node (blank state)) { r with rest := skipBlanks r.rest } tokens [node] r' →
      node.state = .closeParen →
      Reads (.group opener state nodes) r tokens (nodes ++ [node]) r'
  | within {opener : Operator} {state : NodeState} {nodes nodes' : List Node} {node : Node}
    {r₀ r r' : Reader} {tokens tokens' : List Token} :
    skipBlanks r₀.rest ≠ [] →
      Reads (.node (blank state)) { r₀ with rest := skipBlanks r₀.rest } tokens [node] r →
      node.state ≠ .closeParen →
      Reads (.group opener node.state (nodes ++ [node])) r tokens' nodes' r' →
      Reads (.group opener state nodes) r₀ (tokens ++ tokens') nodes' r'
  | last {node node' : Node} {r r' : Reader} {tokens : List Token} :
    Reads (.node node) r tokens [node'] r' → skipBlanks r'.rest = [] →
      Reads (.line node) r tokens (if node'.isEmpty then [] else [node']) { r' with rest := [] }
  | next {node node' : Node} {nodes : List Node} {r₀ r r' : Reader}
    {tokens tokens' : List Token} :
    Reads (.node node) r₀ tokens [node'] r → skipBlanks r.rest ≠ [] →
      Reads (.line (blank node'.state)) { r with rest := skipBlanks r.rest } tokens' nodes r' →
      Reads (.line node) r₀ (tokens ++ tokens')
        ((if node'.isEmpty then [] else [node']) ++ nodes) r'

theorem ends_reading_reads {steps : Nat} :
    (∀ (node : Node) (r : Reader), node.mostSteps r.rest ≤ steps →
      Ends node.read r
        (fun node' r' => Reads (.node node) r (tokensAt (placesOn steps node r)) [node'] r')
        fun _ _ => True) ∧
    ∀ (opener : Operator) (state : NodeState) (nodes : List Node) (r : Reader),
      3 * r.rest.length + 2 ≤ steps →
      Ends (readNodes opener state nodes) r
        (fun nodes' r' =>
          Reads (.group opener state nodes) r (tokensAt (placesWithin steps state r)) nodes' r')
        fun _ _ => True := by
  refine steps_induct
    (P := fun steps node r => Ends node.read r
      (fun node' r' => Reads (.node node) r (tokensAt (placesOn steps node r)) [node'] r')
      fun _ _ => True)
    (G := fun steps opener state nodes r => Ends (readNodes opener state nodes) r
      (fun nodes' r' =>
        Reads (.group opener state nodes) r (tokensAt (placesWithin steps state r)) nodes' r')
      fun _ _ => True)
    (fun steps node r _ hfollowed => ?_) (fun steps opener state nodes r hsteps hrest => ?_) steps
  · rw [read_eq, placesOn, tokensAt_cons]
    refine ends_bind.2 (ends_iff.2 ⟨fun turn r₁ hturn => ?_, fun _ _ _ => trivial⟩)
    have hnext := hfollowed turn r₁ hturn
    rw [hturn]
    cases turn with
    | done node' =>
      change Reads _ _ ((node.token? r).toList ++ []) _ _
      rw [List.append_nil]
      exact .done hturn
    | again next => exact hnext.mono (fun _ _ h => .again hturn h) fun _ _ h => h
    | nest outer => exact ends_bind.2 (hnext.mono (fun _ _ h => .nest hturn h) fun _ _ h => h)
    | enter outer opener =>
      exact ends_bind.2 (hnext.mono (fun _ _ h => .enter hturn h) fun _ _ h => h)
  · rw [readNodes_eq, placesWithin]
    refine ends_bind.2 (ends_ahead.2 ?_)
    by_cases hmore : skipBlanks r.rest = []
    · simp only [hmore, List.isEmpty_nil, if_true]
      exact ends_bind.2 (ends_modify.2 (.unclosed hmore))
    · obtain ⟨hfirst, hlater⟩ := hrest hmore
      simp only [List.isEmpty_iff, hmore, if_false]
      rw [readOn_eq_read (mostSteps_blank_le hsteps), tokensAt_append]
      refine ends_bind.2 (ends_iff.2 ⟨fun node r₁ hread => ?_, fun _ _ _ => trivial⟩)
      have hnode := hfirst.of_ok hread
      rw [hread]
      split
      · rename_i hclosed
        simp only [if_pos hclosed]
        rw [tokensAt_nil, List.append_nil]
        exact .closed hmore hnode hclosed
      · rename_i hopen
        simp only [if_neg hopen]
        exact (hlater node r₁ hread).mono (fun _ _ h => .within hmore hnode hopen h) fun _ _ h => h

theorem ends_readLineOn_reads {nodes : Nat} {node : Node} {r : Reader} (h : r.rest.length < nodes) :
    Ends node.readLineOn r
      (fun nodes' r' => Reads (.line node) r (tokensAt (placesAlong nodes node r)) nodes' r')
      fun _ _ => True := by
  induction nodes generalizing node r with
  | zero => omega
  | succ nodes ih =>
    rw [readLineOn_eq, placesAlong, tokensAt_append]
    refine ends_bind.2 (ends_iff.2 ⟨fun node' r₁ hread => ?_, fun _ _ _ => trivial⟩)
    have hnode :=
      (ends_reading_reads.1 node r (node.mostSteps_le_enoughSteps r.rest)).of_ok hread
    have hsteps : readOn (enoughSteps r.rest) node r = .ok node' r₁ := hread
    rw [hsteps]
    refine ends_bind.2 (ends_ahead.2 ?_)
    by_cases hmore : skipBlanks r₁.rest = []
    · simp only [hmore, List.isEmpty_nil, if_true]
      rw [tokensAt_nil, List.append_nil]
      exact .last hnode hmore
    · simp only [List.isEmpty_iff, hmore, if_false]
      have hlt := length_lt_of_read hread hmore
      have hrest := @ih (blank node'.state) { r₁ with rest := skipBlanks r₁.rest }
        (by dsimp only; omega)
      exact ends_bind.2 (hrest.mono (fun _ _ h => .next hnode hmore h) fun _ _ h => h)

/-- A text that is read into nodes is read into them along with its tokens. -/
theorem reads_readText {seed : Option Quantity} {r : Reader} {nodes : List Node}
    (h : (readText seed r).1 = .ok nodes) :
    Reads (.line (begunWith seed)) r (tokens seed r) nodes (readText seed r).2 := by
  rw [readText, build_eq] at h ⊢
  have hends : Ends (begunWith seed).readLineOn r _ _ :=
    ends_readLineOn_reads (Nat.lt_succ_self r.rest.length)
  cases hread : (begunWith seed).readLineOn r with
  | ok nodes' r' =>
    rw [hread] at h
    obtain rfl := Except.ok.inj h
    exact hends.of_ok hread
  | error snag r' =>
    rw [hread] at h
    cases snag <;> cases h

theorem exists_of_isOk {seed : Option Quantity} {r : Reader}
    (h : (readText seed r).1.isOk = true) : ∃ nodes, (readText seed r).1 = .ok nodes := by
  cases hread : (readText seed r).1 with
  | ok nodes => exact ⟨nodes, rfl⟩
  | error why =>
    rw [hread] at h
    cases h

end Node

end Reckoner
