import Reckoner.Proofs.Evaluation.Restore

/-!
# What operators compute

An operator that computes takes its operands off the stack and leaves one value,
and that is bare (`Quantity.IsBare`): it has no name, so that it is neither a
constant nor anything unknown, whatever the operands were. Values below the
operands are those there were (`Eval.apply_isBare`). Formulas may be evaluated
in any way, as only the magnitudes of their results are used.
-/

namespace Reckoner

/-- The quantity stands for nothing but its value. -/
structure Quantity.IsBare (q : Quantity) : Prop where
  name : q.name = ""
  isVariable : q.isVariable = false
  isUnset : q.isUnset = false
  isConstant : q.isConstant = false

/-- The action computes a value from its operands. -/
def Action.computes : Action → Bool
  | arithmetic _ | elementary _ | circular _ | inverse _ | convert => true
  | _ => false

namespace Eval

/-! ## What steps give -/

variable {α β : Type} {settings : Settings} {formula : Formula}

/-- Results of the step are in `R`. -/
def Gives (R : α → Prop) (x : Eval α) : Prop :=
  ∀ m, Ends x m (fun a _ => R a) fun _ _ => True

theorem gives_true (x : Eval α) : Gives (fun _ => True) x :=
  ends_true x

theorem gives_bind {R : β → Prop} {x : Eval α} {f : α → Eval β} (h : ∀ a, Gives R (f a)) :
    Gives R (x >>= f) := fun m =>
  ends_bind.2 ((gives_true x m).mono (fun a m' _ => h a m') fun _ _ h => h)

theorem Gives.restoring {R : α → Prop} {x : Eval α} (hx : Gives R x) (stack : List Quantity) :
    Gives R (restoring stack x) := fun m =>
  ends_restoring.2 ((hx m).mono (fun _ _ h => h) fun e _ _ => by cases e <;> trivial)

/-! ## Computed values -/

theorem isBare_combine {op : Arithmetic} {left right q : Quantity}
    (h : op.combine left right = some q) : q.IsBare := by
  obtain ⟨magnitude, -, rfl⟩ := Option.map_eq_some_iff.1 h
  exact ⟨rfl, rfl, rfl, rfl⟩

theorem isBare_of {f : Elementary} {q q' : Quantity} (h : f.of q = some q') : q'.IsBare := by
  obtain ⟨magnitude, -, rfl⟩ := Option.map_eq_some_iff.1 h
  exact ⟨rfl, rfl, rfl, rfl⟩

theorem isBare_realIn (q : Quantity) (measure : Measure) (format : String) :
    (q.realIn measure format).IsBare :=
  ⟨rfl, rfl, rfl, rfl⟩

theorem gives_convertTo (q target : Quantity) :
    Gives Quantity.IsBare (q.convertTo settings formula target) := by
  unfold Quantity.convertTo
  dsimp only
  split
  · exact fun _ => trivial
  · split
    · exact fun _ => isBare_realIn _ _ _
    · exact gives_bind fun _ _ => isBare_realIn _ _ _

theorem gives_fromRadians (q : Quantity) :
    Gives Quantity.IsBare (q.fromRadians settings formula) := by
  rw [Quantity.fromRadians]
  split
  · exact fun _ => isBare_realIn _ _ _
  · exact gives_bind fun _ _ => isBare_realIn _ _ _

/-! ## Operators -/

/-- The step leaves a bare value on top of the given ones. -/
def PushesBare (below : List Quantity) (x : Eval PUnit) (m : Machine) : Prop :=
  Ends x m (fun _ m' => ∃ q : Quantity, q.IsBare ∧ m'.stack = q :: below) fun _ _ => True

theorem pushesBare_setStack {q : Quantity} (h : q.IsBare) (below : List Quantity) (m : Machine) :
    PushesBare below (setStack (q :: below)) m :=
  ⟨q, h, rfl⟩

theorem pushesBare_bind {R : α → Prop} {x : Eval α} {f : α → Eval PUnit} {below : List Quantity}
    (hx : Gives R x) (hf : ∀ a m', R a → PushesBare below (f a) m') (m : Machine) :
    PushesBare below (x >>= f) m :=
  ends_bind.2 ((hx m).mono (fun a m' h => hf a m' h) fun _ _ h => h)

variable [DigitLimit]

/-- An action that computes takes as many values as it has operands. -/
theorem pushesBare_perform (spelling : String) {action : Action} (haction : action.computes = true)
    {stack : List Quantity} (hlength : action.operands ≤ stack.length) (m : Machine) :
    PushesBare (stack.drop action.operands) (perform settings formula spelling action stack) m := by
  match action, stack, hlength with
  | .arithmetic op, right :: left :: below, _ =>
    dsimp only [perform]
    split
    · rename_i hcombine
      exact pushesBare_setStack (isBare_combine hcombine) below m
    · exact trivial
  | .elementary f, q :: below, _ =>
    dsimp only [perform]
    split
    · rename_i hof
      exact pushesBare_setStack (isBare_of hof) below m
    · exact trivial
  | .circular f, q :: below, _ =>
    refine pushesBare_bind (gives_true _) (fun _ _ _ => ?_) m
    refine pushesBare_bind (gives_true _) (fun _ m' _ => ?_) _
    exact pushesBare_setStack ⟨rfl, rfl, rfl, rfl⟩ below m'
  | .inverse f, q :: below, _ =>
    refine pushesBare_bind (gives_true _) (fun _ _ _ => ?_) m
    refine pushesBare_bind ((gives_fromRadians _).restoring _) (fun _ m' hangle => ?_) _
    exact pushesBare_setStack hangle below m'
  | .convert, target :: q :: below, _ =>
    refine pushesBare_bind (gives_true _) (fun _ _ _ => ?_) m
    refine pushesBare_bind ((gives_convertTo q target).restoring _) (fun _ m' hq => ?_) _
    exact pushesBare_setStack hq below m'

/-- The result of an operator that computes is bare. It takes the place of the
    operands. -/
theorem apply_isBare {o : Operator} (ho : o.action.computes = true) (m : Machine) :
    PushesBare (m.stack.drop o.action.operands) (apply settings formula o) m := by
  refine ends_apply_of_perform o (fun _ _ => trivial) (fun _ _ _ => trivial)
    fun m₁ hlength hconfirms => ?_
  have hkeeps := hconfirms.keepsStack
  rw [← hkeeps.drop_eq (confirmed_le_operands o.action)]
  exact pushesBare_perform o.spelling ho (hkeeps.length_eq ▸ hlength) m₁

end Eval

end Reckoner
