import Reckoner.Proofs.Evaluation.Blind
import Reckoner.Proofs.Evaluation.Restore
import Reckoner.Proofs.Evaluation.Showing

/-!
# Steps that are alike

One step of evaluation is alike to another (`Eval.Alike`) if on every machine
it ends as that does, in all but the stack that a failure leaves; it may also be
interrupted by a value without a text, as far as there are such values. Steps
that are alike can be put in each other's place in front of others and behind
them (`Alike.bind`), a value can be pushed before a blind step or after it
(`alike_push_bind`), and on values that confirming does not change
(`Quantity.IsSettled`) an operator is what its action is (`alike_perform`).
-/

namespace Reckoner

namespace Eval

variable {α β : Type}

/-- The results are the same, except for the stack after a failure. -/
inductive SameResult : EStateM.Result Halt Machine α → EStateM.Result Halt Machine α → Prop
  | ok (a : α) (m : Machine) : SameResult (.ok a m) (.ok a m)
  | error (e : Halt) (m : Machine) (stack : List Quantity) :
    SameResult (.error e m) (.error e { m with stack := stack })

/-- On every machine, the first step has the same result as the other one, except
    for the stack after a failure, or it is interrupted by a value without a
    text. -/
def Alike (settings : Settings) (x y : Eval α) : Prop :=
  ∀ m, SameResult (x m) (y m) ∨ Unshown settings (x m)

namespace SameResult

variable {x y z : EStateM.Result Halt Machine α}

theorem refl (x : EStateM.Result Halt Machine α) : SameResult x x := by
  cases x with
  | ok a m => exact .ok a m
  | error e m => exact .error e m m.stack

theorem symm (h : SameResult x y) : SameResult y x := by
  cases h with
  | ok a m => exact .ok a m
  | error e m stack => exact .error e { m with stack := stack } m.stack

theorem trans (h : SameResult x y) (h' : SameResult y z) : SameResult x z := by
  cases h with
  | ok a m => exact h'
  | error e m stack =>
    cases h' with
    | error _ _ stack' => exact .error e m stack'

theorem eq_ok {a : α} {m : Machine} (h : SameResult x (.ok a m)) : x = .ok a m := by
  cases h
  rfl

theorem eq_error {e : Halt} {m : Machine} (h : SameResult x (.error e m)) :
    ∃ stack, x = .error e { m with stack := stack } := by
  obtain - | ⟨e, m, stack⟩ := h.symm
  exact ⟨stack, rfl⟩

theorem unshown {settings : Settings} (h : SameResult x y) (hy : Unshown settings y) :
    Unshown settings x := by
  obtain ⟨hshows, why, m, rfl⟩ := hy
  obtain ⟨stack, rfl⟩ := h.eq_error
  exact ⟨hshows, why, _, rfl⟩

end SameResult

namespace Alike

variable {settings : Settings} {x y z : Eval α}

theorem refl (x : Eval α) : Alike settings x x := fun m => .inl (.refl (x m))

theorem of_eq (h : x = y) : Alike settings x y := h ▸ refl x

theorem trans (h : Alike settings x y) (h' : Alike settings y z) : Alike settings x z := by
  intro m
  rcases h m with hxy | hx
  · exact (h' m).imp hxy.trans hxy.unshown
  · exact .inr hx

theorem bind {f g : α → Eval β} (h : Alike settings x y) (hfg : ∀ a, Alike settings (f a) (g a)) :
    Alike settings (x >>= f) (y >>= g) := by
  intro m
  have hm := h m
  cases hx : x m with
  | ok a m' =>
    rw [hx] at hm
    obtain hsame | ⟨-, why, m'', hfault⟩ := hm
    · generalize hy : y m = result at hsame
      cases hsame
      rw [bind_of_ok hx, bind_of_ok hy]
      exact hfg a m'
    · cases hfault
  | error e m' =>
    rw [hx] at hm
    obtain hsame | ⟨hshows, why, m'', hfault⟩ := hm
    · -- Nothing comes after a failure, which is where the stacks may differ.
      generalize hy : y m = result at hsame
      cases hsame
      rw [bind_of_error hx, bind_of_error hy]
      exact .inl (.error ..)
    · cases hfault
      exact .inr ⟨hshows, why, m', bind_of_error hx⟩

/-- What comes behind a step only has to be alike for what the step gives. -/
theorem bind_of {P : α → Prop} {f g : α → Eval β}
    (h : ∀ m, Ends x m (fun a _ => P a) fun _ _ => True)
    (hfg : ∀ a, P a → Alike settings (f a) (g a)) : Alike settings (x >>= f) (x >>= g) := by
  intro m
  cases hx : x m with
  | ok a m' =>
    rw [bind_of_ok hx, bind_of_ok hx]
    exact hfg a ((h m).of_ok hx) m'
  | error e m' =>
    rw [bind_of_error hx, bind_of_error hx]
    exact .inl (.refl _)

end Alike

/-- Having to show the stack after a failure makes no other difference. -/
theorem alike_onFailure_showStack {settings : Settings} (x : Eval PUnit) :
    Alike settings (onFailure x (showStack settings)) x := by
  intro m
  rcases onlyShows_showStack.onFailure m with hsame | hshown
  · rw [hsame]
    exact .inl (.refl _)
  · exact .inr hshown

/-! ## Pushing -/

theorem push_nil : push [] = pure ⟨⟩ := rfl

/-- A blind step does the same after a push. -/
theorem alike_push_bind {settings : Settings} {x : Eval α} (hx : Blind x) (qs : List Quantity)
    (f : α → Eval β) :
    Alike settings (push qs >>= fun _ => x >>= f) (x >>= fun a => push qs >>= fun _ => f a) := by
  intro m
  refine .inl ?_
  have hstack := hx.ends_stack m
  have hpushed := hx m (qs.reverse ++ m.stack)
  change SameResult ((x >>= f) { m with stack := qs.reverse ++ m.stack }) _
  cases hm : x m with
  | ok a m' =>
    rw [hm] at hpushed
    rw [bind_of_ok hpushed, bind_of_ok hm, ← hstack.of_ok hm]
    exact .refl _
  | error e m' =>
    rw [hm] at hpushed
    rw [bind_of_error hpushed, bind_of_error hm]
    exact (SameResult.error e m' _).symm

/-- It makes no difference on what stack a step fails. -/
theorem sameResult_refuse (f : Failure) (g : α → Eval β) (stack : List Quantity) (m : Machine) :
    SameResult (refuse f { m with stack := stack }) ((refuse f >>= g) m) :=
  (SameResult.error .failed { m with messages := m.messages ++ [f.message] } stack).symm

/-- A blind step with its operands off the stack, and put back if it fails. -/
theorem sameResult_restoring {x : Eval α} (hx : Blind x) (value : α → Quantity)
    (stack mid operands : List Quantity) (m : Machine) :
    SameResult
      ((do
        setStack mid
        let a ← restoring operands x
        setStack (value a :: m.stack)) { m with stack := stack })
      ((do push [value (← x)]) m) := by
  have hstack := hx.ends_stack m
  have hmid := hx m mid
  -- On the other stack the step does the same, and leaves that one as it is.
  change SameResult
    ((restoring operands x >>= fun a => setStack (value a :: m.stack)) { m with stack := mid }) _
  cases hm : x m with
  | ok a m' =>
    have hrestoring : restoring operands x { m with stack := mid } =
        .ok a { m' with stack := mid } := by rw [restoring, hmid, hm]; rfl
    rw [bind_of_ok hrestoring, bind_of_ok hm]
    change SameResult _ (EStateM.Result.ok PUnit.unit { m' with stack := value a :: m'.stack })
    rw [hstack.of_ok hm]
    exact .refl _
  | error e m' =>
    rw [bind_of_error hm]
    cases e with
    | failed =>
      have hrestoring : restoring operands x { m with stack := mid } =
          .error .failed { m' with stack := operands } := by rw [restoring, hmid, hm]; rfl
      rw [bind_of_error hrestoring]
      exact (SameResult.error _ m' _).symm
    | fault f =>
      have hrestoring : restoring operands x { m with stack := mid } =
          .error (.fault f) { m' with stack := mid } := by rw [restoring, hmid, hm]; rfl
      rw [bind_of_error hrestoring]
      exact (SameResult.error _ m' _).symm

/-! ## Runs -/

variable [DigitLimit]

theorem runEach_append (settings : Settings) (formula : Formula) (nodes nodes' : List Node) :
    runEach settings formula (nodes ++ nodes') = (do
      runEach settings formula nodes
      runEach settings formula nodes') := by
  induction nodes with
  | nil => rfl
  | cons node nodes ih =>
    simp only [List.cons_append, runEach, ih, bind_assoc]

theorem runEach_singleton (settings : Settings) (formula : Formula) (node : Node) :
    runEach settings formula [node] = runNode settings formula node := by
  simp only [runEach, bind_pure_unit]

end Eval

/-! ## Operators on settled values -/

/-- Confirming the value does not change it. -/
def Quantity.IsSettled (q : Quantity) : Prop :=
  (!q.isVariable || q.isConstant) = true

namespace Eval

variable {settings : Settings} {formula : Formula}

variable [DigitLimit]

theorem confirm_of_isSettled {q : Quantity} (h : q.IsSettled) : q.confirm settings = pure q :=
  if_pos h

theorem confirmTop_eq {m : Machine} {count : Nat} (hcount : count ≤ m.stack.length)
    (h : ∀ q ∈ m.stack.take count, q.IsSettled) : confirmTop settings count m = .ok ⟨⟩ m := by
  induction count with
  | zero => rfl
  | succ count ih =>
    have hlt : count < m.stack.length := hcount
    have htop : m.stack[count] ∈ m.stack.take (count + 1) := by
      rw [List.take_add_one, List.getElem?_eq_getElem hlt]
      exact List.mem_append_right _ (List.mem_singleton.2 rfl)
    -- The values above have not been changed either.
    have hbefore := ih (Nat.le_of_lt hlt) fun q hq =>
      h q (List.take_subset_take_left m.stack (Nat.le_succ count) hq)
    refine (bind_of_ok hbefore).trans ?_
    have hstack : stack m = .ok m.stack m := rfl
    refine (bind_of_ok hstack).trans ?_
    rw [List.getElem?_eq_getElem hlt]
    dsimp only
    rw [confirm_of_isSettled (h _ htop), pure_bind]
    refine (bind_of_ok hstack).trans ?_
    rw [List.set_getElem_self]
    rfl

/-- On settled operands, an operator carries out its action, and then the value on top has
    to have a text. -/
theorem apply_of_isSettled (settings : Settings) (formula : Formula) (o : Operator) {m : Machine}
    (himplemented : o.action.isImplemented = true) (hlength : o.action.operands ≤ m.stack.length)
    (h : ∀ q ∈ m.stack.take o.action.confirmed, q.IsSettled) :
    apply settings formula o m =
      andAlways (do perform settings formula o.spelling o.action (← stack)) (showTop settings)
        m := by
  have hconfirm : confirmTop settings o.action.confirmed m = .ok ⟨⟩ m :=
    confirmTop_eq (Nat.le_trans (confirmed_le_operands o.action) hlength) h
  have hstack : stack m = .ok m.stack m := rfl
  rw [apply]
  refine (bind_of_ok hstack).trans ?_
  rw [himplemented, if_neg (by decide), if_neg (by omega)]
  exact bind_of_ok hconfirm

/-- Where the value that it leaves on top has a text, the operator has been carried out. -/
theorem apply_of_perform (o : Operator) (m m' : Machine) {q : Quantity} {below : List Quantity}
    (himplemented : o.action.isImplemented = true) (hlength : o.action.operands ≤ m.stack.length)
    (h : ∀ q ∈ m.stack.take o.action.confirmed, q.IsSettled)
    (hperform : perform settings formula o.spelling o.action m.stack m =
      .ok ⟨⟩ { m' with stack := q :: below })
    (htext : ∃ text, q.text settings = .ok text) :
    apply settings formula o m = .ok ⟨⟩ { m' with stack := q :: below } := by
  have hstack : stack m = .ok m.stack m := rfl
  have hshow : showTop settings { m' with stack := q :: below } =
      .ok ⟨⟩ { m' with stack := q :: below } := by
    obtain ⟨text, htext⟩ := htext
    have hshown : shown settings q { m' with stack := q :: below } =
        .ok text { m' with stack := q :: below } := by
      rw [shown, htext]
      rfl
    exact bind_of_ok hshown
  rw [apply_of_isSettled settings formula o himplemented hlength h, andAlways, bind_of_ok hstack,
    hperform]
  exact hshow

/-- That makes no other difference. -/
theorem alike_perform (settings : Settings) (formula : Formula) (o : Operator) {m : Machine}
    (himplemented : o.action.isImplemented = true) (hlength : o.action.operands ≤ m.stack.length)
    (h : ∀ q ∈ m.stack.take o.action.confirmed, q.IsSettled) :
    SameResult (apply settings formula o m)
        (perform settings formula o.spelling o.action m.stack m) ∨
      Unshown settings (apply settings formula o m) := by
  have hstack : stack m = .ok m.stack m := rfl
  rw [apply_of_isSettled settings formula o himplemented hlength h]
  refine (onlyShows_showTop.andAlways m).imp_left fun hsame => ?_
  rw [hsame, bind_of_ok hstack]
  exact .refl _

end Eval

end Reckoner
