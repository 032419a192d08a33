import Reckoner.Proofs.Evaluation.Frame
import Reckoner.Proofs.Reading.Flattening

/-!
# The height of the stack

Every operand raises the stack by one, and an operator lowers it by one or
leaves it as high as it was, according to its action alone (`Action.lowers`).
So the height of the stack after a line that succeeds can be told from its tree:
to that before, the operands add one each, wherever in the tree they are, and
the operators that lower it take one each (`Eval.runLine_height`).

How high an operator leaves the stack is said of the action first, which deals
with it in its own way (`Eval.reaches_perform`), then of the operator, which
brings its operands up to date in their places (`Eval.reaches_apply`). What a
line does follows token by token, in the order of its run.
-/

namespace Reckoner

/-- The action leaves one value for the two it takes, or none for one. -/
def Action.lowers : Action → Bool
  | arithmetic _ | convert | assign _ | drop => true
  | _ => false

/-- The token is an operator that lowers the stack. -/
def Token.lowers : Token → Bool
  | .operand _ => false
  | .operator o => o.action.lowers

namespace Eval

variable {α : Type} {settings : Settings} {formula : Formula}

/-- Having succeeded, the step leaves a stack that lacks as many values as given to be of the
    given height. -/
def Reaches (lowered height : ℕ) (x : Eval α) (m : Machine) : Prop :=
  Ends x m (fun _ m' => m'.stack.length + lowered = height) fun _ _ => True

section

variable {lowered height : ℕ} {m : Machine}

theorem reaches_setStack {stack : List Quantity} (h : stack.length + lowered = height) :
    Reaches lowered height (setStack stack) m := h

theorem reaches_refuse (f : Failure) : Reaches lowered height (refuse f : Eval α) m := trivial

/-- Only the last step counts, wherever it begins. -/
theorem reaches_bind {β : Type} {x : Eval β} {f : β → Eval α}
    (h : ∀ b m', Reaches lowered height (f b) m') : Reaches lowered height (x >>= f) m :=
  ends_bind.2 ((ends_true x m).mono (fun b m' _ => h b m') fun _ _ h => h)

end

/-! ## Actions -/

section

variable [DigitLimit]

/-- The result of an assignment takes the place of the target and the value. -/
theorem reaches_assignTo (spelling : String) (combine : Option Arithmetic) (slot : Slot)
    (target value : Quantity) (below : List Quantity) (m : Machine) :
    Reaches 1 (below.length + 2) (assignTo settings spelling combine slot target value below)
      m := by
  refine reaches_bind fun _ _ => reaches_bind fun value _ => reaches_bind fun _ _ => ?_
  refine reaches_bind fun result m => ?_
  refine ends_bind.2 (ends_modify.2 (ends_bind.2 (ends_get.2 ?_)))
  dsimp only
  cases m.store.assign (target.given result) with
  | ok store => exact rfl
  | error f => exact reaches_bind fun _ _ => reaches_refuse f

/-- An action with enough values for it lowers the stack or leaves it as high as it was. -/
theorem reaches_perform (spelling : String) {action : Action} {stack : List Quantity}
    (hlength : action.operands ≤ stack.length) {m : Machine} (hstack : m.stack = stack) :
    Reaches action.lowers.toNat stack.length (perform settings formula spelling action stack)
      m := by
  match action, stack, hlength with
  | .arithmetic op, right :: left :: below, _ =>
    dsimp only [perform]
    split
    · exact reaches_setStack rfl
    · exact reaches_refuse _
  | .elementary f, q :: below, _ =>
    dsimp only [perform]
    split
    · exact reaches_setStack rfl
    · exact reaches_refuse _
  -- What a formula leaves on the stack is replaced, whatever it is.
  | .circular f, q :: below, _ =>
    exact reaches_bind fun _ _ => reaches_bind fun angle _ => reaches_setStack rfl
  | .inverse f, q :: below, _ =>
    exact reaches_bind fun _ _ => reaches_bind fun angle _ => reaches_setStack rfl
  | .convert, target :: q :: below, _ =>
    exact reaches_bind fun _ _ => reaches_bind fun q _ => reaches_setStack rfl
  | .drop, _ :: below, _ => exact reaches_setStack rfl
  | .swap, top :: second :: below, _ => exact reaches_setStack rfl
  | .swap, [_], _ => exact reaches_refuse _
  | .assign combine, top :: second :: below, _ =>
    refine reaches_bind fun slot m => ?_
    cases slot with
    | top => exact reaches_assignTo spelling combine .top top second below m
    | below => exact reaches_assignTo spelling combine .below second top below m
  | .opening _, _, _ | .closing, _, _ | .separator, _, _ => exact congrArg List.length hstack

/-! ## Tokens -/

theorem reaches_apply (o : Operator) (m : Machine) :
    Reaches o.action.lowers.toNat m.stack.length (apply settings formula o) m := by
  refine ends_apply_of_perform o (fun _ _ => trivial) (fun _ _ _ => trivial)
    fun m₁ hlength hconfirms => ?_
  rw [← hconfirms.keepsStack.length_eq] at hlength ⊢
  exact reaches_perform o.spelling hlength rfl

theorem reaches_runToken (token : Token) (m : Machine) :
    Reaches token.lowers.toNat (m.stack.length + (Token.operands [token]).length)
      (runToken settings formula token) m := by
  cases token with
  | operand q => exact rfl
  | operator o => exact reaches_apply o m

/-- Tokens raise the stack once for each operand, and lower it once for each operator that
    lowers it. -/
theorem reaches_runTokens (tokens : List Token) (m : Machine) :
    Reaches (tokens.countP Token.lowers) (m.stack.length + (Token.operands tokens).length)
      (runTokens settings formula tokens) m := by
  induction tokens generalizing m with
  | nil => exact rfl
  | cons token tokens ih =>
    refine ends_bind.2 ((reaches_runToken token m).mono (fun _ m₁ htoken => ?_) fun _ _ h => h)
    refine (ih m₁).mono (fun _ m' htokens => ?_) fun _ _ h => h
    have hcount : (token :: tokens).countP Token.lowers =
        tokens.countP Token.lowers + token.lowers.toNat := by
      rw [List.countP_cons]
      cases token.lowers <;> rfl
    have hoperands : (Token.operands (token :: tokens)).length =
        (Token.operands [token]).length + (Token.operands tokens).length := by
      rw [← List.length_append, ← Token.operands_append, List.singleton_append]
    omega

/-! ## Lines -/

/-- A line that succeeds has put each of its operands on the stack, and each operator that lowers
    the stack has taken one value off it. -/
theorem runLine_height (settings : Settings) (formula : Formula) (nodes : List Node)
    {m m' : Machine} (h : runLine settings formula nodes m = .ok ⟨⟩ m') :
    m'.stack.length + (Node.flattenEach nodes).countP Token.lowers =
      m.stack.length + (Token.operands (Node.flattenEach nodes)).length := by
  have hrun := onFailure_eq_ok h
  rw [runEach_eq] at hrun
  exact (reaches_runTokens _ m).of_ok hrun

end

/-- The nodes of `x = (2 + 3)`, the sum nested in the assignment, and of `4 ;`. -/
def sumThenDropped : List Node := [
  ⟨.function, some ⟨"=", "assign", .assign none, "store into variable"⟩, [.unset "x"], [], [
    ⟨.parsed, some ⟨"+", "add", .arithmetic .add, "addition"⟩,
      [{ magnitude := .whole 2 }], [{ magnitude := .whole 3 }], []⟩]⟩,
  ⟨.parsed, some ⟨";", "clear", .drop, "drop the top of the stack"⟩,
    [{ magnitude := .whole 4 }], [], []⟩]

/-- Of four operands, three operators leave one value. -/
theorem sumThenDropped_height : ∃ m',
    runLine .default (Settings.default.formulaAt 0) sumThenDropped
        ⟨[{ magnitude := .whole 7 }], .initial, [], none, []⟩ = .ok ⟨⟩ m' ∧
      m'.stack.length + 3 = 1 + 4 := by
  have hrun : ∃ m', runLine .default (Settings.default.formulaAt 0) sumThenDropped
      ⟨[{ magnitude := .whole 7 }], .initial, [], none, []⟩ = .ok ⟨⟩ m' := ⟨_, rfl⟩
  obtain ⟨m', h⟩ := hrun
  exact ⟨m', h, runLine_height .default (Settings.default.formulaAt 0) sumThenDropped h⟩

end Eval

end Reckoner
