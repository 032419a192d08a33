import Reckoner.Proofs.Evaluation.Frame
import Reckoner.Proofs.Reading.Passing
import Reckoner.Proofs.Reading.Visits

/-!
# Reserved operators

The comma and some openers are kept for later: reading knows them, but nothing
carries them out. A line in which reading takes one of them (`Node.Takes`) comes to
nodes of which one is *blocked* (`Node.Blocked`), as it or a node nested in it has an
operator that is not implemented; and running a blocked node always fails
(`Node.Blocked.ends_runNode`).

One place is left out (`Node.runLine_of_reserved`): behind a function, a reserved
opener opens the group that the function applies to, and the node keeps the function
as its operator. So `abs<[5]` is five (`Node.absolute_vector_runs`).
-/

namespace Reckoner

open Text Build Eval

/-- The opener of a vector, which is reserved. -/
def Operator.vector : Operator :=
  ⟨"<[", "vector", .opening true, "vector literal"⟩

namespace Node

/-! ## Blocked nodes -/

/-- The node, or one nested in it, has an operator that is not implemented. -/
inductive Blocked : Node → Prop
  | operator {node : Node} {o : Operator} :
    node.operator = some o → o.action.isImplemented = false → Blocked node
  | child {node child : Node} : child ∈ node.children → Blocked child → Blocked node

namespace Blocked

variable {node : Node} {settings : Settings} {formula : Formula}

/-- Neither the state nor the operands have to do with it. -/
theorem of_eq {node' : Node} (h : node.Blocked) (hoperator : node'.operator = node.operator)
    (hchildren : node'.children = node.children) : node'.Blocked := by
  cases h with
  | operator ho hnot => exact .operator (hoperator.trans ho) hnot
  | child hmem hchild => exact .child (hchildren ▸ hmem) hchild

theorem isEmpty_eq_false (h : node.Blocked) : node.isEmpty = false := by
  cases h with
  | operator ho _ => simp [isEmpty, ho]
  | child hmem _ =>
    have hne : node.children ≠ [] := List.ne_nil_of_mem hmem
    simp [isEmpty, hne]

variable [DigitLimit]

/-- Of several nodes, the run does not get past one that always fails. -/
theorem ends_runEach {nodes : List Node} (hmem : node ∈ nodes)
    (h : ∀ m, Ends (runNode settings formula node) m (fun _ _ => False) fun _ _ => True)
    (m : Machine) : Ends (runEach settings formula nodes) m (fun _ _ => False) fun _ _ => True := by
  induction nodes generalizing m with
  | nil => cases hmem
  | cons first nodes ih =>
    rw [runEach]
    rcases List.mem_cons.1 hmem with rfl | hmem
    · exact ends_bind.2 ((h m).mono (fun _ _ h => h.elim) fun _ _ h => h)
    · exact ends_bind.2 ((ends_true _ m).mono (fun _ m _ => ih hmem m) fun _ _ h => h)

theorem ends_apply {o : Operator} (h : o.action.isImplemented = false) (m : Machine) :
    Ends (apply settings formula o) m (fun _ _ => False) fun _ _ => True := by
  rw [apply]
  refine ends_bind.2 ?_
  rw [h]
  exact trivial

/-- A blocked node cannot be run to its end. -/
theorem ends_runNode (h : node.Blocked) (m : Machine) :
    Ends (runNode settings formula node) m (fun _ _ => False) fun _ _ => True := by
  induction h generalizing m with
  | @operator node o ho hnot =>
    obtain ⟨state, operator, prior, params, children⟩ := node
    obtain rfl : operator = some o := ho
    rw [runNode]
    -- Whatever comes before, the operator fails in the end.
    refine ends_bind.2 ((ends_true _ m).mono (fun _ m _ => ?_) fun _ _ h => h)
    refine ends_bind.2 ((ends_true _ m).mono (fun _ m _ => ?_) fun _ _ h => h)
    refine ends_bind.2 ((ends_true _ m).mono (fun _ m _ => ?_) fun _ _ h => h)
    exact ends_apply hnot m
  | @child node child hmem _ ih =>
    obtain ⟨state, operator, prior, params, children⟩ := node
    rw [runNode.eq_def]
    refine ends_bind.2 ((ends_true _ m).mono (fun _ m _ => ?_) fun _ _ h => h)
    exact ends_bind.2 ((ends_runEach hmem ih m).mono (fun _ _ h => h.elim) fun _ _ h => h)

end Blocked

/-- Leaving a group open changes the state of its last node only. -/
theorem exists_blocked_markUnclosed {nodes : List Node} (h : ∃ node ∈ nodes, node.Blocked) :
    ∃ node ∈ markUnclosed nodes, node.Blocked := by
  obtain ⟨node, hmem, hblocked⟩ := h
  have hne : nodes ≠ [] := List.ne_nil_of_mem hmem
  rw [← List.dropLast_append_getLast hne] at hmem
  rw [markUnclosed, List.getLast?_eq_some_getLast hne]
  rcases List.mem_append.1 hmem with hmem | hmem
  · exact ⟨node, List.mem_append_left _ hmem, hblocked⟩
  · rw [List.mem_singleton.1 hmem] at hblocked
    exact ⟨_, List.mem_append_right _ (List.mem_singleton.2 rfl), hblocked.of_eq rfl rfl⟩

section

variable [DigitLimit]

/-- Nodes with a blocked one among them cannot be run as a line. -/
theorem runLine_ne_ok {settings : Settings} {formula : Formula} {nodes : List Node}
    (h : ∃ node ∈ nodes, node.Blocked) (m m' : Machine) :
    runLine settings formula nodes m ≠ .ok ⟨⟩ m' := by
  obtain ⟨node, hmem, hblocked⟩ := h
  have hrun : Ends (runEach settings formula nodes) m (fun _ _ => False) fun _ _ => True :=
    Blocked.ends_runEach hmem hblocked.ends_runNode m
  intro hline
  exact hrun.of_ok (onFailure_eq_ok hline)

/-! ## Taking operators -/

/-- In reading the part, a node in the given state takes the operator off the text
    and does not nest it. -/
inductive Takes (o : Operator) (state : NodeState) : Part → Reader → Prop
  | here {node : Node} {r : Reader} :
    skipBlanks r.rest ≠ [] → Node.ahead node.state (skipBlanks r.rest) = .operator o →
      node.takesOperator = true → node.state = state → Takes o state (.node node) r
  | again {node node' : Node} {r r' : Reader} :
    node.turn r = .ok (.again node') r' → Takes o state (.node node') r' →
      Takes o state (.node node) r
  | nest {node node' : Node} {r r' : Reader} :
    node.turn r = .ok (.nest node') r' → Takes o state (.node (blank .initial)) r' →
      Takes o state (.node node) r
  | enter {node node' : Node} {opener : Operator} {r r' : Reader} :
    node.turn r = .ok (.enter node' opener) r' →
      Takes o state (.group opener .initial node'.children) r' → Takes o state (.node node) r
  | first {opener : Operator} {begun : NodeState} {nodes : List Node} {r : Reader} :
    skipBlanks r.rest ≠ [] → Takes o state (.node (blank begun)) r →
      Takes o state (.group opener begun nodes) r
  | later {opener : Operator} {begun : NodeState} {nodes : List Node} {node : Node}
    {r r' : Reader} :
    skipBlanks r.rest ≠ [] → (blank begun).read r = .ok node r' → node.state ≠ .closeParen →
      Takes o state (.group opener node.state (nodes ++ [node])) r' →
      Takes o state (.group opener begun nodes) r
  | begun {node : Node} {r : Reader} :
    Takes o state (.node node) r → Takes o state (.line node) r
  | next {node node' : Node} {r r' : Reader} :
    node.read r = .ok node' r' → skipBlanks r'.rest ≠ [] →
      Takes o state (.line (blank node'.state)) r' → Takes o state (.line node) r

/-- The part is read into a blocked node, or into nodes of which one is. -/
def Part.Blocks : Part → Reader → Prop
  | .node begun, r => Ends begun.read r (fun node _ => node.Blocked) fun _ _ => True
  | .group opener state before, r =>
    Ends (readNodes opener state before) r (fun nodes _ => ∃ node ∈ nodes, Blocked node)
      fun _ _ => True
  | .line begun, r =>
    Ends begun.readLineOn r (fun nodes _ => ∃ node ∈ nodes, Blocked node) fun _ _ => True

section

variable {o : Operator} {state : NodeState} {part : Part} {node : Node} {r : Reader}

/-- What becomes of a node that takes an operator. -/
theorem turn_takes (hmore : skipBlanks r.rest ≠ [])
    (hahead : Node.ahead node.state (skipBlanks r.rest) = .operator o)
    (htakes : node.takesOperator = true) :
    ∃ text r', node.turn r =
      .ok (if o.arity = .groupOpen then .enter (node.openGroup o) o
        else .of (node.addOperator o text)) r' := by
  let text := skipBlanks ((skipBlanks r.rest).drop o.spelling.length)
  refine ⟨text, { r with rest := text }, (turn_eq node hmore).trans ?_⟩
  have hdrop : scan (Scan.drop o.spelling.length) { r with rest := skipBlanks r.rest } =
      .ok ⟨⟩ { r with rest := (skipBlanks r.rest).drop o.spelling.length } := rfl
  rw [hahead, proceed, if_pos htakes]
  refine (bind_of_ok hdrop).trans ((bind_of_ok (ahead_eq _)).trans ?_)
  split <;> rfl

/-- A node that takes a reserved operator has that operator from then on, unless it
    waits for the group of another one. -/
theorem blocks_here (ho : o.action.isReserved = true) (hstate : node.state ≠ .unary)
    (hmore : skipBlanks r.rest ≠ [])
    (hahead : Node.ahead node.state (skipBlanks r.rest) = .operator o)
    (htakes : node.takesOperator = true) : (Part.node node).Blocks r := by
  obtain ⟨text, r', hturn⟩ := turn_takes hmore hahead htakes
  have hnone : node.operator = none := by simpa [takesOperator, hstate] using htakes
  rw [Part.Blocks, read_eq]
  refine ends_bind.2 (ends_of_eq_ok hturn ?_)
  obtain ⟨spelling, name, action, description⟩ := o
  cases action with
  | opening reserved =>
    -- The group is read into the node, behind which that stays as it is.
    have hopen : ((node.openGroup ⟨spelling, name, .opening reserved, description⟩).operator =
        some ⟨spelling, name, .opening reserved, description⟩) := by
      simp only [openGroup, hnone]
      exact if_pos ho
    refine ends_bind.2 ((ends_true _ r').mono (fun nodes _ _ => ?_) fun _ _ h => h)
    exact .operator hopen rfl
  | separator => exact .operator rfl rfl
  | _ => cases ho

/-- A group keeps the nodes that it has. -/
theorem ends_readGroup_of_mem (steps : Nat) (opener : Operator) (begun : NodeState)
    {nodes : List Node} (h : ∃ node ∈ nodes, node.Blocked) (r : Reader) :
    Ends (readGroup steps opener begun nodes) r (fun nodes' _ => ∃ node ∈ nodes', node.Blocked)
      fun _ _ => True := by
  induction steps generalizing begun nodes r with
  | zero => exact h
  | succ steps ih =>
    rw [readGroup]
    refine ends_bind.2 (ends_ahead.2 ?_)
    split
    · exact ends_bind.2 (ends_modify.2 (ends_pure.2 (exists_blocked_markUnclosed h)))
    · obtain ⟨node, hmem, hblocked⟩ := h
      refine ends_bind.2 ((ends_true _ _).mono (fun node' r' _ => ?_) fun _ _ h => h)
      have happend : ∃ node ∈ nodes ++ [node'], node.Blocked :=
        ⟨node, List.mem_append_left _ hmem, hblocked⟩
      split
      · exact happend
      · exact ih node'.state happend r'

theorem Takes.blocks (h : Takes o state part r) (ho : o.action.isReserved = true)
    (hstate : state ≠ .unary) : part.Blocks r := by
  induction h with
  | here hmore hahead htakes heq => exact blocks_here ho (heq ▸ hstate) hmore hahead htakes
  | again hturn _ ih =>
    rw [Part.Blocks, read_eq]
    exact ends_bind.2 (ends_of_eq_ok hturn ih)
  | nest hturn _ ih =>
    rw [Part.Blocks, read_eq]
    refine ends_bind.2 (ends_of_eq_ok hturn (ends_bind.2 (ih.mono (fun child _ h => ?_)
      fun _ _ h => h)))
    exact .child (List.mem_append_right _ (List.mem_singleton.2 rfl)) h
  | enter hturn _ ih =>
    rw [Part.Blocks, read_eq]
    refine ends_bind.2 (ends_of_eq_ok hturn (ends_bind.2 (ih.mono (fun nodes _ h => ?_)
      fun _ _ h => h)))
    obtain ⟨child, hmem, hchild⟩ := h
    exact .child hmem hchild
  | @first opener begun nodes r hmore _ ih =>
    rw [Part.Blocks, readNodes_eq]
    refine ends_bind.2 (ends_ahead.2 ?_)
    rw [if_neg (by simpa using hmore)]
    rw [Part.Blocks, Ends, skipsBlanks_read (blank begun) r] at ih
    refine ends_bind.2 (Ends.mono ih (fun node' r' h => ?_) fun _ _ h => h)
    have happend : ∃ node ∈ nodes ++ [node'], node.Blocked :=
      ⟨node', List.mem_append_right _ (List.mem_singleton.2 rfl), h⟩
    split
    · exact happend
    · exact ends_readGroup_of_mem _ opener node'.state happend r'
  | @later opener begun nodes node r r' hmore hread hopen _ ih =>
    rw [Part.Blocks, readNodes_eq]
    refine ends_bind.2 (ends_ahead.2 ?_)
    rw [if_neg (by simpa using hmore)]
    rw [skipsBlanks_read (blank begun) r] at hread
    refine ends_bind.2 (ends_of_eq_ok hread ?_)
    rw [if_neg hopen]
    exact ih
  | begun _ ih =>
    rw [Part.Blocks, readLineOn_eq]
    refine ends_bind.2 (ih.mono (fun node' r' h => ?_) fun _ _ h => h)
    refine ends_bind.2 (ends_ahead.2 ?_)
    rw [h.isEmpty_eq_false]
    split
    · exact ⟨node', List.mem_singleton.2 rfl, h⟩
    · refine ends_bind.2 ((ends_true _ _).mono (fun nodes _ _ => ?_) fun _ _ h => h)
      exact ⟨node', List.mem_append_left _ (List.mem_singleton.2 rfl), h⟩
  | @next node node' r r' hread hmore _ ih =>
    rw [Part.Blocks, readLineOn_eq]
    refine ends_bind.2 (ends_of_eq_ok hread ?_)
    refine ends_bind.2 (ends_ahead.2 ?_)
    rw [if_neg (by simpa using hmore)]
    rw [Part.Blocks, Ends, skipsBlanks_readLineOn (blank node'.state) r'] at ih
    refine ends_bind.2 (Ends.mono ih (fun nodes _ h => ?_) fun _ _ h => h)
    obtain ⟨node, hmem, hblocked⟩ := h
    exact ⟨node, List.mem_append_right _ hmem, hblocked⟩

end

/-! ## Lines with reserved operators -/

/-- If a reserved operator is taken off the text, other than by a node that waits for
    the group of a function, what the text is read into cannot be run. -/
theorem runLine_of_reserved {o : Operator} {state : NodeState} {seed : Option Quantity}
    {r r' : Reader} {nodes : List Node} (hread : readText seed r = (.ok nodes, r'))
    (ho : o.action.isReserved = true) (htakes : Takes o state (.line (begunWith seed)) r)
    (hstate : state ≠ .unary) (settings : Settings) (formula : Formula) (m m' : Machine) :
    runLine settings formula nodes m ≠ .ok ⟨⟩ m' := by
  have hblocks := htakes.blocks ho hstate
  have hbuild := build_of_readText (congrArg Prod.fst hread)
  rw [hread] at hbuild
  have hline : build seed r = (begunWith seed).readLineOn r := by cases seed <;> rfl
  rw [hline] at hbuild
  exact runLine_ne_ok (hblocks.of_ok hbuild) m m'

end

/-- A vector on its own is taken, and not run. -/
theorem vector_fails :
    ∃ nodes r', readText none ⟨"<[5]".toList, Store.initial, []⟩ = (.ok nodes, r') ∧
      Takes .vector .initial (.line (begunWith none)) ⟨"<[5]".toList, Store.initial, []⟩ ∧
      ∀ m m', runLine .default (Settings.default.formulaAt 0) nodes m ≠ .ok ⟨⟩ m' := by
  have htakes : Takes .vector .initial (.line (begunWith none))
      ⟨"<[5]".toList, Store.initial, []⟩ :=
    .begun (.here (by decide) (by rfl) rfl rfl)
  refine ⟨_, _, rfl, htakes, ?_⟩
  exact runLine_of_reserved rfl rfl htakes (by decide) .default _

/-- The stack behind a step that gives a result. -/
def stackOf? : EStateM.Result Halt Machine PUnit → Option (List Quantity)
  | .ok _ m => some m.stack
  | .error .. => none

/-- A vector behind a function is taken, too, but the line is run to its end. -/
theorem absolute_vector_runs :
    let r : Reader := ⟨"abs<[5]".toList, Store.initial, []⟩
    let m : Machine := ⟨[], Store.initial, [], none, []⟩
    ∃ nodes r' m', readText none r = (.ok nodes, r') ∧
      Takes .vector .unary (.line (begunWith none)) r ∧
      runLine .default (Settings.default.formulaAt 0) nodes m = .ok ⟨⟩ m' ∧
      m'.stack = [{ magnitude := .whole 5 }] := by
  intro r m
  have hturn : (begunWith none).turn r =
      .ok (.again ⟨.unary, some ⟨"abs", "abs", .elementary .abs, "absolute value"⟩, [], [], []⟩)
        ⟨"<[5]".toList, Store.initial, []⟩ := by rfl
  have htakes : Takes .vector .unary (.line (begunWith none)) r :=
    .begun (.again hturn (.here (by decide) (by rfl) rfl rfl))
  have hstack : ((readText none r).1.toOption.bind fun nodes =>
      stackOf? (runLine .default (Settings.default.formulaAt 0) nodes m)) =
        some [{ magnitude := .whole 5 }] := by decide +kernel
  generalize hread : readText none r = read at hstack
  obtain ⟨read, r'⟩ := read
  cases read with
  | error e => cases hstack
  | ok nodes =>
    replace hstack : stackOf? (runLine .default (Settings.default.formulaAt 0) nodes m) =
        some [{ magnitude := .whole 5 }] := hstack
    generalize hline : runLine .default (Settings.default.formulaAt 0) nodes m = result at hstack
    cases result with
    | ok _ m' => exact ⟨nodes, r', m', rfl, htakes, hline, Option.some.inj hstack⟩
    | error e m' => cases hstack

end Node

end Reckoner
