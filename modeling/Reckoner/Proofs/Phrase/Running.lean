import Reckoner.Proofs.Evaluation.Alike
import Reckoner.Proofs.Phrase.Basic

/-!
# Running the tree of a phrase

Running the tree of a phrase pushes the value of the phrase, and fails where
that cannot be computed (`Phrase.alike_nodes`). The values of phrases are blind
(`Phrase.blind_eval`) and settled (`Phrase.isSettled_eval`), so that operands
may wait on the stack while others are computed, and an operator finds them
there as they are.
-/

namespace Reckoner

open Eval

/-! ## Settled values -/

theorem Literal.isSettled_quantity (l : Literal) : l.quantity.IsSettled := by
  rw [quantity]
  split <;> rfl

theorem Atom.isSettled_quantity (a : Atom) : a.quantity.IsSettled := by
  cases a with
  | literal l => exact l.isSettled_quantity
  | constant c h => rfl

variable {settings : Settings} {formula : Formula}

theorem BinaryOperator.ends_eval (o : BinaryOperator) (left right : Quantity) (m : Machine) :
    Ends (o.eval left right) m (fun q _ => q.IsSettled) fun _ _ => True := by
  rw [eval]
  split
  · rename_i hcombine
    obtain ⟨magnitude, -, rfl⟩ := Option.map_eq_some_iff.1 hcombine
    rfl
  · trivial

theorem UnaryOperator.ends_eval (f : UnaryOperator) (q : Quantity) (m : Machine) :
    Ends (f.eval settings formula q) m (fun q _ => q.IsSettled) fun _ _ => True := by
  rw [eval]
  split
  · split
    · rename_i hof
      obtain ⟨magnitude, -, rfl⟩ := Option.map_eq_some_iff.1 hof
      rfl
    · trivial
  · exact ends_bind.2 (ends_iff.2 ⟨fun _ _ _ => rfl, fun _ _ _ => trivial⟩)
  · unfold Quantity.fromRadians
    split
    · rfl
    · exact ends_bind.2 (ends_iff.2 ⟨fun _ _ _ => rfl, fun _ _ _ => trivial⟩)

theorem ends_convertTo (q target : Quantity) (m : Machine) :
    Ends (q.convertTo settings formula target) m (fun q _ => q.IsSettled) fun _ _ => True := by
  unfold Quantity.convertTo
  dsimp only
  split
  · trivial
  · split
    · rfl
    · exact ends_bind.2 (ends_iff.2 ⟨fun _ _ _ => rfl, fun _ _ _ => trivial⟩)

mutual

theorem Term.isSettled_eval : (t : Term) → (m : Machine) →
    Ends (t.eval settings formula) m (fun q _ => q.IsSettled) fun _ _ => True
  | .atom a, _ => a.isSettled_quantity
  | .group _ e, m => e.isSettled_eval m
  | .call f e, m => ends_bind.2 ((e.isSettled_eval m).mono (fun q m _ => f.ends_eval q m)
      fun _ _ h => h)

theorem Phrase.isSettled_eval : (e : Phrase) → (m : Machine) →
    Ends (e.eval settings formula) m (fun q _ => q.IsSettled) fun _ _ => True
  | .term t, m => t.isSettled_eval m
  | .apply e o t, m =>
    ends_bind.2 ((e.isSettled_eval m).mono (fun left m _ => ends_bind.2
      ((t.isSettled_eval m).mono (fun right m _ => o.ends_eval left right m) fun _ _ h => h))
      fun _ _ h => h)
  | .convert e s _, m =>
    ends_bind.2 ((e.isSettled_eval m).mono (fun q m _ => ends_convertTo q s.target m)
      fun _ _ h => h)

end

/-! ## Blind values -/

theorem BinaryOperator.blind_eval (o : BinaryOperator) (left right : Quantity) :
    Blind (o.eval left right) := by
  rw [eval]
  split
  · exact blind_pure _
  · exact blind_refuse _

section

variable (settings) (hformula : ∀ q text, Blind (formula q text))
include hformula

theorem UnaryOperator.blind_eval (f : UnaryOperator) (q : Quantity) :
    Blind (f.eval settings formula q) := by
  rw [eval]
  split
  · split
    · exact blind_pure _
    · exact blind_refuse _
  · exact (blind_toRadians settings hformula q).bind fun _ => blind_pure _
  · exact blind_fromRadians settings hformula _

end

mutual

theorem Term.blind_eval (settings : Settings) (hformula : ∀ q text, Blind (formula q text)) :
    (t : Term) → Blind (t.eval settings formula)
  | .atom _ => blind_pure _
  | .group _ e => e.blind_eval settings hformula
  | .call f e => (e.blind_eval settings hformula).bind fun q => f.blind_eval settings hformula q

theorem Phrase.blind_eval (settings : Settings) (hformula : ∀ q text, Blind (formula q text)) :
    (e : Phrase) → Blind (e.eval settings formula)
  | .term t => t.blind_eval settings hformula
  | .apply e o t =>
    (e.blind_eval settings hformula).bind fun left =>
      (t.blind_eval settings hformula).bind fun right => o.blind_eval left right
  | .convert e s _ =>
    (e.blind_eval settings hformula).bind fun q => blind_convertTo settings hformula q s.target

end

/-! ## Operators -/

variable [DigitLimit]

/-- On settled operands, an operator carries out its operation, unless the result has no
    text. -/
theorem BinaryOperator.sameResult_apply (settings : Settings) (formula : Formula)
    (o : BinaryOperator) {left right : Quantity} (m : Machine) (below : List Quantity)
    (hleft : left.IsSettled) (hright : right.IsSettled) :
    SameResult (apply settings formula o.operator { m with stack := right :: left :: below })
        (perform settings formula o.operator.spelling (.arithmetic o.arithmetic)
          (right :: left :: below) { m with stack := right :: left :: below }) ∨
      Unshown settings
        (apply settings formula o.operator { m with stack := right :: left :: below }) := by
  obtain ⟨operator, op, hmem, haction⟩ := o
  have happly := alike_perform settings formula operator
    (m := { m with stack := right :: left :: below })
    (by rw [haction]; rfl) (by rw [haction]; exact Nat.le_add_left 2 _)
    (by rw [haction]; simpa [Action.confirmed] using ⟨hright, hleft⟩)
  rwa [haction] at happly

theorem BinaryOperator.alike_apply (o : BinaryOperator) {left right : Quantity}
    (hleft : left.IsSettled) (hright : right.IsSettled) :
    Alike settings
      (do
        push [left]
        push [right]
        apply settings formula o.operator)
      (do push [← o.eval left right]) := by
  intro m
  have happly := o.sameResult_apply settings formula m m.stack hleft hright
  refine happly.imp_left fun hsame => hsame.trans ?_
  simp only [perform, eval]
  cases o.arithmetic.combine left right with
  | some q => exact .refl _
  | none => exact sameResult_refuse _ _ _ m

/-- Where the result of two settled operands has a text, the operator leaves it in their
    place. -/
theorem BinaryOperator.apply_of_combine (o : BinaryOperator) (m : Machine) (below : List Quantity)
    {left right q : Quantity} (hleft : left.IsSettled) (hright : right.IsSettled)
    (hcombine : o.arithmetic.combine left right = some q)
    (htext : ∃ text, q.text settings = .ok text) :
    apply settings formula o.operator { m with stack := right :: left :: below } =
      .ok ⟨⟩ { m with stack := q :: below } := by
  obtain ⟨operator, op, hmem, haction⟩ := o
  refine apply_of_perform operator { m with stack := right :: left :: below } m ?_ ?_ ?_ ?_ htext
  · rw [haction]
    rfl
  · rw [haction]
    exact Nat.le_add_left 2 _
  · rw [haction]
    simpa [Action.confirmed] using ⟨hright, hleft⟩
  · rw [haction]
    simp only [perform, hcombine]
    rfl

/-- An operator that succeeds has left the result of two settled operands in their place. -/
theorem BinaryOperator.exists_of_apply (o : BinaryOperator) {m m' : Machine}
    {left right : Quantity} {below : List Quantity} (hleft : left.IsSettled)
    (hright : right.IsSettled)
    (h : apply settings formula o.operator { m with stack := right :: left :: below } =
      .ok ⟨⟩ m') :
    ∃ q, q.IsSettled ∧ m' = { m with stack := q :: below } := by
  have happly := o.sameResult_apply settings formula m below hleft hright
  rw [h] at happly
  obtain hsame | ⟨-, why, m'', hfault⟩ := happly
  · have hperform := hsame.symm.eq_ok
    simp only [perform] at hperform
    cases hcombine : o.arithmetic.combine left right with
    | some q =>
      have hq : q.IsSettled := by
        obtain ⟨magnitude, -, rfl⟩ := Option.map_eq_some_iff.1 hcombine
        rfl
      rw [hcombine] at hperform
      cases hperform
      exact ⟨q, hq, rfl⟩
    | none =>
      rw [hcombine] at hperform
      cases hperform
  · cases hfault

section

variable (hformula : ∀ q text, Blind (formula q text))
include hformula

theorem UnaryOperator.alike_apply (f : UnaryOperator) {q : Quantity} (hq : q.IsSettled) :
    Alike settings
      (do
        push [q]
        apply settings formula f.operator)
      (do push [← f.eval settings formula q]) := by
  obtain ⟨operator, function, hmem, haction⟩ := f
  intro m
  have happly := alike_perform settings formula operator (m := { m with stack := q :: m.stack })
    (by rw [haction]; cases function <;> rfl)
    (by rw [haction]; cases function <;> exact Nat.le_add_left 1 _)
    (by rw [haction]; cases function <;> simpa [UnaryFunction.action, Action.confirmed] using hq)
  refine happly.imp_left fun hsame => hsame.trans ?_
  rw [haction]
  cases function with
  | elementary f =>
    simp only [perform, eval, UnaryFunction.action]
    cases f.of q with
    | some q => exact .refl _
    | none => exact sameResult_refuse _ _ _ m
  | circular f =>
    simp only [perform, eval, UnaryFunction.action, bind_assoc, pure_bind]
    exact sameResult_restoring (blind_toRadians settings hformula q)
      (fun angle =>
        { magnitude := .real (f.value angle.magnitude.toReal), format := q.format }) _ _ _ m
  | inverse f =>
    simp only [perform, eval, UnaryFunction.action]
    exact sameResult_restoring (blind_fromRadians settings hformula _) id _ _ _ m

theorem alike_apply_conversion {q target : Quantity} (hq : q.IsSettled)
    (htarget : target.IsSettled) :
    Alike settings
      (do
        push [q]
        push [target]
        apply settings formula .conversion)
      (do push [← q.convertTo settings formula target]) := by
  intro m
  have happly := alike_perform settings formula .conversion
    (m := { m with stack := target :: q :: m.stack }) rfl (Nat.le_add_left 2 _)
    (by simpa [Operator.conversion, Action.confirmed] using ⟨htarget, hq⟩)
  refine happly.imp_left fun hsame => hsame.trans ?_
  simp only [perform, Operator.conversion]
  exact sameResult_restoring (blind_convertTo settings hformula q target) id _ _ _ m

end

/-! ## Trees -/

/-- Running what a phrase has come to: its complete nodes, and the operand that
    waits for the next operator, if there is one. -/
def Phrase.run (settings : Settings) (formula : Formula) (e : Phrase) : Eval PUnit := do
  runEach settings formula e.complete
  push e.last.prior

/-- A node of operands alone pushes them. -/
theorem runNode_last (e : Phrase) (state : NodeState) :
    runNode settings formula { e.last with state := state } = push e.last.prior := by
  obtain ⟨hoperator, hparams, hchildren⟩ := e.last_eq
  simp only [runNode, hoperator, hparams, hchildren, runEach, push_nil, pure_bind, bind_pure_unit]

/-- A phrase whose last node is complete, too. -/
theorem runEach_closed (e : Phrase) (state : NodeState) :
    runEach settings formula (e.complete ++ [{ e.last with state := state }]) =
      e.run settings formula := by
  rw [runEach_append, runEach_singleton, runNode_last]
  rfl

/-- A single operand waits for the next operator; any other term is a node. -/
theorem Term.run_eq (t : Term) :
    (Phrase.term t).run settings formula = runNode settings formula t.node := by
  cases t with
  | atom a =>
    simp only [Phrase.run, Phrase.complete, Phrase.last, Term.atom?, Option.isSome_some, if_true,
      Term.node, Node.seeded, runNode, runEach, push_nil, pure_bind, bind_pure_unit]
  | _ =>
    simp only [Phrase.run, Phrase.complete, Phrase.last, Term.atom?, Option.isSome_none,
      Bool.false_eq_true, if_false, Node.blank, runEach_singleton, push_nil, bind_pure_unit]

/-- The node of an operator begins with the operand that has waited for it. -/
theorem Phrase.run_apply (e : Phrase) (o : BinaryOperator) (t : Term) :
    (Phrase.apply e o t).run settings formula = (do
      e.run settings formula
      runNode settings formula t.node
      Eval.apply settings formula o.operator) := by
  obtain ⟨-, hparams, hchildren⟩ := e.last_eq
  have hlast : (Phrase.apply e o t).last.prior = [] := rfl
  rw [run, hlast, push_nil, bind_pure_unit]
  cases t with
  | atom a =>
    simp only [run, complete, Term.atom?, Node.joining, runEach_append, Term.node, Node.seeded,
      runNode, hchildren, runEach, push_nil, pure_bind, bind_pure_unit, bind_assoc]
  | _ =>
    simp only [run, complete, Term.atom?, Node.joining, runEach_append, runEach_singleton,
      Node.nesting, runNode, hparams, hchildren, List.nil_append, push_nil, pure_bind, bind_assoc]

theorem Phrase.run_convert (e : Phrase) (s : Measure.Spelling) (h : s ∈ Measure.Spelling.table) :
    (Phrase.convert e s h).run settings formula = (do
      e.run settings formula
      push [s.target]
      Eval.apply settings formula .conversion) := by
  obtain ⟨-, -, hchildren⟩ := e.last_eq
  have hlast : (Phrase.convert e s h).last.prior = [] := rfl
  rw [run, hlast, push_nil, bind_pure_unit]
  simp only [run, complete, runEach_append, runNode, hchildren, runEach, pure_bind,
    bind_pure_unit, bind_assoc]

/-! ## Values of trees -/

section

variable (hformula : ∀ q text, Blind (formula q text))
include hformula

theorem alike_operands (e : Phrase) (o : BinaryOperator) (t : Term) {begun operand : Eval PUnit}
    (he : Alike settings begun (do push [← e.eval settings formula]))
    (ht : Alike settings operand (do push [← t.eval settings formula])) :
    Alike settings
      (do
        begun
        operand
        apply settings formula o.operator)
      (do push [← (Phrase.apply e o t).eval settings formula]) := by
  refine (he.bind fun _ => ht.bind fun _ => .refl _).trans ?_
  simp only [Phrase.eval, bind_assoc]
  refine Alike.bind_of e.isSettled_eval fun left hleft => ?_
  -- The left operand may as well be pushed once the right one is computed.
  refine (alike_push_bind (t.blind_eval settings hformula) [left] _).trans ?_
  refine Alike.bind_of t.isSettled_eval fun right hright => ?_
  exact o.alike_apply hleft hright

theorem alike_conversion (e : Phrase) (s : Measure.Spelling) (h : s ∈ Measure.Spelling.table)
    {begun : Eval PUnit} (he : Alike settings begun (do push [← e.eval settings formula])) :
    Alike settings
      (do
        begun
        push [s.target]
        apply settings formula .conversion)
      (do push [← (Phrase.convert e s h).eval settings formula]) := by
  refine (he.bind fun _ => .refl _).trans ?_
  simp only [Phrase.eval, bind_assoc]
  exact Alike.bind_of e.isSettled_eval fun q hq => alike_apply_conversion hformula hq rfl

theorem alike_call (f : UnaryOperator) (e : Phrase) {begun : Eval PUnit}
    (he : Alike settings begun (do push [← e.eval settings formula])) :
    Alike settings
      (do
        begun
        apply settings formula f.operator)
      (do push [← (Term.call f e).eval settings formula]) := by
  refine (he.bind fun _ => .refl _).trans ?_
  simp only [Term.eval, bind_assoc]
  exact Alike.bind_of e.isSettled_eval fun q hq => f.alike_apply hformula hq

end

mutual

theorem Term.alike_node (hformula : ∀ q text, Blind (formula q text)) :
    (t : Term) →
      Alike settings (runNode settings formula t.node) (do push [← t.eval settings formula])
  | .atom a => .of_eq (by
      simp only [Term.node, Node.seeded, runNode, runEach, push_nil, Term.eval, pure_bind,
        bind_pure_unit])
  | .group b e => by
    have he := e.alike_run hformula
    simp only [Term.node, runNode, push_nil, pure_bind, bind_pure_unit, runEach_closed]
    exact he
  | .call f e => by
    have he := e.alike_run hformula
    simp only [Term.node, runNode, push_nil, pure_bind, runEach_closed]
    exact alike_call hformula f e he

/-- What a phrase has come to pushes its value. -/
theorem Phrase.alike_run (hformula : ∀ q text, Blind (formula q text)) :
    (e : Phrase) →
      Alike settings (e.run settings formula) (do push [← e.eval settings formula])
  | .term t => by
    rw [t.run_eq]
    exact t.alike_node hformula
  | .apply e o t => by
    rw [Phrase.run_apply]
    exact alike_operands hformula e o t (e.alike_run hformula)
      (t.alike_node hformula)
  | .convert e s h => by
    rw [Phrase.run_convert]
    exact alike_conversion hformula e s h (e.alike_run hformula)

end

/-- The tree of a phrase that is a whole line is what the phrase has come to. -/
theorem Phrase.runEach_nodes (e : Phrase) :
    runEach settings formula e.nodes = e.run settings formula := by
  rw [nodes]
  split
  · -- Nothing has been read into the last node, so that nothing waits.
    rename_i hempty
    have hprior : e.last.prior = [] := by
      simp only [Node.isEmpty, Bool.and_eq_true, List.isEmpty_iff] at hempty
      exact hempty.1.1.2
    rw [run, hprior, push_nil, bind_pure_unit]
  · have hlast : ({ e.last with state := e.last.state } : Node) = e.last := by
      generalize e.last = node
      obtain ⟨⟩ := node
      rfl
    rw [← hlast, runEach_closed]

theorem Phrase.alike_nodes (hformula : ∀ q text, Blind (formula q text)) (e : Phrase) :
    Alike settings (runEach settings formula e.nodes) (do push [← e.eval settings formula]) := by
  rw [e.runEach_nodes]
  exact e.alike_run hformula

end Reckoner
