import Reckoner.Evaluation.Run
import Reckoner.Proofs.Ends

/-!
# Steps that do not see the stack

Bringing a name up to date, converting a quantity and evaluating a formula only
deal with the store, the messages and the user. They do the same on every
stack, and leave it as it is (`Eval.Blind`): asking and confirming
(`blind_confirm`), conversions, provided that formulas are blind
(`blind_convertTo`), and the formulas themselves, which run on a stack of their
own (`blind_evalFormula`).
-/

namespace Reckoner

namespace Eval

variable {α β : Type}

/-- The result of a step, with another stack in place. -/
def onStack (stack : List Quantity) : EStateM.Result Halt Machine α → EStateM.Result Halt Machine α
  | .ok a m => .ok a { m with stack := stack }
  | .error e m => .error e { m with stack := stack }

/-- The step does the same on every stack, and leaves it as it is. -/
def Blind (x : Eval α) : Prop :=
  ∀ (m : Machine) (stack : List Quantity), x { m with stack := stack } = onStack stack (x m)

/-! ## What blind steps keep -/

theorem Blind.ends_stack {x : Eval α} (hx : Blind x) (m : Machine) :
    Ends x m (fun _ m' => m'.stack = m.stack) fun _ m' => m'.stack = m.stack := by
  have h : x m = onStack m.stack (x m) := hx m m.stack
  refine ends_iff.2 ⟨fun a m' hm => ?_, fun e m' hm => ?_⟩ <;>
    · rw [hm] at h
      injection h with _ h
      rw [h]

/-- A blind step may as well be taken on another stack. -/
theorem Blind.ends_onStack {x : Eval α} (hx : Blind x) {m : Machine} {stack : List Quantity}
    {Q : α → Machine → Prop} {E : Halt → Machine → Prop}
    (h : Ends x m (fun a m' => Q a { m' with stack := stack })
      fun e m' => E e { m' with stack := stack }) :
    Ends x { m with stack := stack } Q E := by
  rw [Ends] at h ⊢
  rw [hx m stack]
  cases hm : x m with
  | ok a m' => rw [hm] at h; exact h
  | error e m' => rw [hm] at h; exact h

/-! ## Composing blind steps -/

theorem blind_pure (a : α) : Blind (pure a) := fun _ _ => rfl

theorem blind_throw (e : Halt) : Blind (throw e : Eval α) := fun _ _ => rfl

theorem Blind.bind {x : Eval α} {f : α → Eval β} (hx : Blind x) (hf : ∀ a, Blind (f a)) :
    Blind (x >>= f) := by
  intro m stack
  have h := hx m stack
  cases hm : x m with
  | ok a m' =>
    rw [hm] at h
    rw [bind_of_ok h, bind_of_ok hm]
    exact hf a m' stack
  | error e m' =>
    rw [hm] at h
    rw [bind_of_error h, bind_of_error hm]
    rfl

/-- What is done with the machine is blind if it does not use the stack. -/
theorem Blind.get_bind {f : Machine → Eval α} (hf : ∀ m, Blind (f m))
    (hstack : ∀ m stack, f { m with stack := stack } = f m) : Blind (get >>= f) := by
  intro m stack
  change f { m with stack := stack } { m with stack := stack } = onStack stack (f m m)
  rw [hstack]
  exact hf m m stack

/-- A change of the machine is blind if it does not concern the stack. -/
theorem blind_modify {f : Machine → Machine}
    (hf : ∀ m stack, f { m with stack := stack } = { f m with stack := stack }) :
    Blind (modify f) := fun m stack => by
  change EStateM.Result.ok _ _ = EStateM.Result.ok _ _
  rw [hf]

theorem blind_say (m : Message) : Blind (say m) := blind_modify fun _ _ => rfl

theorem blind_refuse (f : Failure) : Blind (refuse f : Eval α) :=
  (blind_say _).bind fun _ => blind_throw _

theorem blind_shown (settings : Settings) (q : Quantity) : Blind (shown settings q) := by
  rw [shown]
  split
  · exact blind_pure _
  · exact blind_throw _

/-! ## Asking -/

theorem blind_question (name : String) : Blind (question name) := by
  intro m stack
  -- Whatever the reply is, it is taken without a look at the stack.
  obtain ⟨_, store, messages, replies, asked⟩ := m
  obtain - | - | ⟨reply, replies⟩ := replies
  · rfl
  · rfl
  · cases reply <;> rfl

theorem blind_keep (q : Quantity) : Blind (keep q) := by
  refine Blind.get_bind (fun m => ?_) fun _ _ => rfl
  split
  · exact blind_modify fun _ _ => rfl
  · exact blind_say _

section

variable [DigitLimit]

theorem blind_ask (attempts : Nat) (q : Quantity) : Blind (q.ask attempts) := by
  induction attempts with
  | zero => exact blind_refuse _
  | succ attempts ih =>
    refine (blind_question q.name).bind fun text => ?_
    dsimp only
    split
    · exact blind_pure _
    · split
      · exact (blind_keep _).bind fun _ => blind_pure _
      · exact (blind_say _).bind fun _ => ih
      · exact fun _ _ => rfl

theorem blind_confirm (settings : Settings) (q : Quantity) : Blind (q.confirm settings) := by
  rw [Quantity.confirm]
  split
  · exact blind_pure _
  · refine Blind.get_bind (fun m => ?_) fun _ _ => rfl
    split
    · exact blind_pure _
    · split
      · exact blind_refuse _
      · have hask := blind_ask Quantity.maxAttempts q
        split
        · exact (blind_say _).bind fun _ => hask
        · exact hask

end

/-! ## Converting -/

section

variable (settings : Settings) {formula : Formula} (hformula : ∀ q text, Blind (formula q text))
include hformula

theorem blind_byRule (q : Quantity) (source target : Measure) :
    Blind (q.byRule settings formula source target) := by
  rw [Quantity.byRule]
  split
  · exact hformula _ _
  · exact (blind_shown _ _).bind fun _ => blind_refuse _

theorem blind_convertTo (q target : Quantity) : Blind (q.convertTo settings formula target) := by
  unfold Quantity.convertTo
  dsimp only
  split
  · exact blind_refuse _
  · split
    · exact blind_pure _
    · exact (blind_byRule settings hformula _ _ _).bind fun _ => blind_pure _

theorem blind_toRadians (q : Quantity) : Blind (q.toRadians settings formula) := by
  rw [Quantity.toRadians]
  split
  · exact blind_pure _
  · exact (blind_byRule settings hformula _ _ _).bind fun _ => blind_pure _

theorem blind_fromRadians (q : Quantity) : Blind (q.fromRadians settings formula) := by
  rw [Quantity.fromRadians]
  split
  · exact blind_pure _
  · exact (blind_byRule settings hformula _ _ _).bind fun _ => blind_pure _

end

/-! ## Formulas -/

variable [DigitLimit]

/-- A pass runs on a stack of its own. -/
theorem blind_evalPass (run : List Node → Eval PUnit) (seed : Quantity) (formula : String) :
    Blind (evalPass run seed formula) := by
  intro m stack
  unfold evalPass
  dsimp only
  split
  · rfl
  · rfl
  · split
    · split <;> rfl
    · rfl
    · rfl

theorem blind_evalFormula (settings : Settings) (levels : Nat) (seed : Quantity)
    (formula : String) : Blind (evalFormula settings levels seed formula) := by
  cases levels with
  | zero => exact blind_refuse _
  | succ levels => exact blind_evalPass _ _ _

end Eval

end Reckoner
