import Reckoner.Proofs.Evaluation.Restore
import Reckoner.Proofs.Guarded.Arithmetic

/-!
# Guarded operators

Operators work on the stack in place: they take values off, look at those on top
and put others in their places, and count on there being as many as they use.
Here every such access is guarded, and so is the arithmetic (`Guarded.perform`);
an operator checks how many values there are once, before (`Guarded.apply`).

That is enough for all of them (`Guarded.apply_eq`): applying an operator with
guards is applying it, whatever an alarm would lead to. Assignments take their
target off the stack while they use the value that is left on top, so they need
both of their operands there; swapping uses more values than it asks for, and
checks again.
-/

namespace Reckoner

namespace Guarded

open Eval

variable (alarm : Alarm Halt Machine)

/-! ## The stack -/

/-- The value at a place of the stack; the value on top is at place zero. -/
def peek (place : Nat) : Eval Quantity := do
  match (← stack)[place]? with
  | some q => return q
  | none => alarm Quantity .noValue

/-- Takes the value at a place off the stack. -/
def take (place : Nat) : Eval Quantity := do
  let q ← peek alarm place
  setStack ((← stack).eraseIdx place)
  return q

/-- Replaces the value at a place of the stack. -/
def put (place : Nat) (q : Quantity) : Eval PUnit := do
  let stack ← stack
  if place < stack.length then setStack (stack.set place q) else alarm PUnit .noValue

/-- Puts a value onto the stack, on top or below. -/
def insert (place : Nat) (q : Quantity) : Eval PUnit := do
  setStack ((← stack).insertIdx place q)

/-- On failing, puts a value back onto the stack. -/
def puttingBack {α : Type} (place : Nat) (q : Quantity) (x : Eval α) : Eval α := fun machine =>
  match x machine with
  | .error .failed machine =>
    .error .failed { machine with stack := machine.stack.insertIdx place q }
  | result => result

/-- The value on top of a stack of its own after a step that begins on it. -/
def onScratch (scratch : List Quantity) (x : Eval PUnit) : Eval Quantity := do
  let before ← stack
  setStack scratch
  restoring before x
  let result ← peek alarm 0
  setStack before
  return result

/-! ## Operators -/

/-- An operation on the two values on top. -/
def arithmetic (spelling : String) (op : Arithmetic) : Eval PUnit := do
  let right ← take alarm 0
  let left ← take alarm 0
  match ← op.guarded alarm left.magnitude right.magnitude with
  | some m =>
    insert 0
      { magnitude := m
        measure := op.measure left.measure right.measure
        format := Quantity.firstFormat left.format right.format }
  | none =>
    insert 0 left
    insert 0 right
    refuse (.divisionByZero spelling)

/-- A function of the value on top. -/
def elementary (spelling : String) (f : Elementary) : Eval PUnit := do
  let q ← take alarm 0
  match ← f.guarded alarm q.showsBits q.magnitude with
  | some m => insert 0 { magnitude := m, measure := q.measure, format := q.format }
  | none =>
    insert 0 q
    refuse (.divisionByZero spelling)

/-- What is found among the two values on top where there is no target: the
    first constant from the top, if there is one. -/
def found (stack : List Quantity) : NoTarget :=
  match (stack.take 2).find? Quantity.isConstant with
  | some q => .constant q.name
  | none => .value

/-- Where the target of an assignment is; the value below counts only if there is
    no name on top. -/
def targetSlot (spelling : String) : Eval Slot := do
  let top ← peek alarm 0
  if top.isTarget then return .top
  else if top.isVariable then refuse (.noTarget spelling (found (← stack)))
  else if (← peek alarm 1).isTarget then return .below
  else refuse (.noTarget spelling (found (← stack)))

end Guarded

/-- The place of a slot. -/
def Slot.place : Slot → Nat
  | top => 0
  | below => 1

theorem Slot.insertIdx_place (slot : Slot) (target value : Quantity) (below : List Quantity) :
    (value :: below).insertIdx slot.place target = slot.insert target value below := by
  cases slot <;> rfl

namespace Guarded

open Eval

variable [DigitLimit] (alarm : Alarm Halt Machine)

/-- Brings the values at the given places up to date, one after another. -/
def confirmEach (settings : Settings) : List Nat → Eval PUnit
  | [] => return ⟨⟩
  | place :: places => do
    let q ← peek alarm place
    put alarm place (← q.confirm settings)
    confirmEach settings places

/-- The result that is assigned, which takes the place of the value. -/
def combined (settings : Settings) (spelling : String) (slot : Slot) (target value : Quantity) :
    Option Arithmetic → Eval Quantity
  | none => return value
  | some op => do
    let current ← puttingBack slot.place target (target.confirm settings)
    let result ← puttingBack slot.place target
      (onScratch alarm [value, current] (arithmetic alarm spelling op))
    put alarm 0 result
    return result

/-- Assigns to the target in the given slot, which is off the stack until that
    fails. -/
def assignTo (settings : Settings) (spelling : String) (combine : Option Arithmetic)
    (slot : Slot) : Eval PUnit := do
  let target ← take alarm slot.place
  let value ← peek alarm 0
  let value ← puttingBack slot.place target (value.confirm settings)
  put alarm 0 value
  let result ← combined alarm settings spelling slot target value combine
  match (← get).store.assign (target.given result) with
  | .ok store => modify fun machine => { machine with store := store }
  | .error f =>
    insert slot.place target
    refuse f

/-- Carries out an action on the stack. -/
def perform (settings : Settings) (formula : Formula) (spelling : String) : Action → Eval PUnit
  | .arithmetic op => arithmetic alarm spelling op
  | .elementary f => elementary alarm spelling f
  | .circular f => do
    let q ← take alarm 0
    let angle ← puttingBack 0 q (q.toRadians settings formula)
    insert 0 { magnitude := .real (f.value angle.magnitude.toReal), format := q.format }
  | .inverse f => do
    let q ← take alarm 0
    let angle : Quantity :=
      { magnitude := .real (f.angle q.magnitude.toReal), format := q.format }
    let angle ← puttingBack 0 q (angle.fromRadians settings formula)
    insert 0 angle
  | .drop => discard (take alarm 0)
  | .swap => do
    if (← stack).length < 2 then refuse .nothingToSwap
    else
      let top ← peek alarm 0
      let second ← peek alarm 1
      put alarm 0 second
      put alarm 1 top
  | .convert => do
    let target ← take alarm 0
    let q ← peek alarm 0
    let q ← puttingBack 0 target (q.convertTo settings formula target)
    put alarm 0 q
  | .assign combine => do
    assignTo alarm settings spelling combine (← targetSlot alarm spelling)
  | .opening _ | .closing | .separator => return ⟨⟩

end Guarded

/-- The places of the values that an action brings up to date, in their order. -/
def Action.places (a : Action) : List Nat :=
  if a.confirms then
    match a.arity with
    | .binary | .convert => [0, 1]
    | .unary | .separator => [0]
    | .assign | .groupOpen | .groupClose => []
  else []

/-- Applies an operator to the stack. -/
def Guarded.apply [DigitLimit] (alarm : Alarm Halt Machine) (settings : Settings)
    (formula : Formula) (o : Operator) : Eval PUnit := do
  let present := (← Eval.stack).length
  if !o.action.isImplemented then Eval.refuse (.notImplemented o.spelling)
  else if present < o.action.operands then
    Eval.refuse (.missingOperands o.spelling o.action.operands present)
  else
    confirmEach alarm settings o.action.places
    Eval.andAlways (perform alarm settings formula o.spelling o.action) (Eval.showTop settings)

namespace Guarded

open Eval

variable {α : Type} (alarm : Alarm Halt Machine) {settings : Settings} {formula : Formula}
  {spelling : String} (m : Machine)

/-! ## Places on the stack -/

theorem places_eq (action : Action) : action.places = List.range action.confirmed := by
  cases action <;> rfl

theorem get_eq : (get : Eval Machine) m = .ok m m := rfl

theorem stack_eq : Eval.stack m = .ok m.stack m := rfl

theorem setStack_eq (stack : List Quantity) : setStack stack m = .ok ⟨⟩ { m with stack := stack } :=
  rfl

theorem peek_eq {place : Nat} {q : Quantity} (h : m.stack[place]? = some q) :
    peek alarm place m = .ok q m := by
  rw [peek, bind_of_ok (stack_eq m), h]
  rfl

theorem put_eq {place : Nat} (h : place < m.stack.length) (q : Quantity) :
    put alarm place q m = .ok ⟨⟩ { m with stack := m.stack.set place q } := by
  rw [put, bind_of_ok (stack_eq m), if_pos h]
  rfl

theorem take_eq {place : Nat} {q : Quantity} (h : m.stack[place]? = some q) :
    take alarm place m = .ok q { m with stack := m.stack.eraseIdx place } := by
  rw [take, bind_of_ok (peek_eq alarm m h)]
  rfl

theorem puttingBack_of_ok {x : Eval α} {m m' : Machine} {a : α} (h : x m = .ok a m') (place : Nat)
    (q : Quantity) : puttingBack place q x m = .ok a m' := by
  rw [puttingBack, h]

theorem puttingBack_of_failed {x : Eval α} {m m' : Machine} (h : x m = .error .failed m')
    (place : Nat) (q : Quantity) :
    puttingBack place q x m =
      .error .failed { m' with stack := m'.stack.insertIdx place q } := by
  rw [puttingBack, h]

section

variable {β : Type} {x : Eval α} (hx : Blind x) (place : Nat) (q : Quantity)
  (stack : List Quantity)
include hx

theorem puttingBack_eq :
    puttingBack place q x { m with stack := stack } =
      restoring (stack.insertIdx place q) x { m with stack := stack } := by
  rw [puttingBack, restoring, hx m stack]
  cases x m with
  | ok a m' => rfl
  | error e m' => cases e <;> rfl

/-- What follows a step that does not see the stack starts on the stack the step
    was taken on. -/
theorem puttingBack_bind {f g : α → Eval β}
    (hfg : ∀ a (m' : Machine), f a { m' with stack := stack } = g a { m' with stack := stack }) :
    (puttingBack place q x >>= f) { m with stack := stack } =
      (restoring (stack.insertIdx place q) x >>= g) { m with stack := stack } := by
  refine bind_eq_of_ok (puttingBack_eq m hx place q stack) fun a m' h => ?_
  have hends : Ends (restoring (stack.insertIdx place q) x) { m with stack := stack }
      (fun _ m' => m'.stack = stack) fun _ _ => True :=
    ends_restoring.2 ((hx.ends_stack _).mono (fun _ _ h => h) fun e _ _ => by cases e <;> trivial)
  have hstack : m'.stack = stack := hends.of_ok (puttingBack_eq m hx place q stack ▸ h)
  obtain rfl := hstack
  exact hfg a m'

end

/-! ## Arithmetic on the stack -/

section

variable (right left : Quantity) (below : List Quantity)

theorem arithmetic_eq (op : Arithmetic) :
    arithmetic alarm spelling op { m with stack := right :: left :: below } =
      (match op.combine left right with
      | some q => setStack (q :: below)
      | none => refuse (.divisionByZero spelling) : Eval PUnit)
        { m with stack := right :: left :: below } := by
  rw [arithmetic, bind_of_ok (take_eq alarm _ rfl)]
  rw [bind_of_ok (take_eq alarm _ rfl), op.guarded_eq alarm, pure_bind, Arithmetic.combine]
  cases op.apply left.magnitude right.magnitude <;> rfl

theorem elementary_eq (q : Quantity) (f : Elementary) :
    elementary alarm spelling f { m with stack := q :: below } =
      (match f.of q with
      | some q => setStack (q :: below)
      | none => refuse (.divisionByZero spelling) : Eval PUnit)
        { m with stack := q :: below } := by
  rw [elementary, bind_of_ok (take_eq alarm _ rfl), f.guarded_eq alarm, pure_bind, Elementary.of]
  cases f.apply q.showsBits q.magnitude <;> rfl

end

/-! ## Assignments -/

section

variable (top second : Quantity) (below : List Quantity)

theorem found_eq : found (top :: second :: below) =
    if top.isConstant then .constant top.name
    else if second.isConstant then .constant second.name
    else .value := by
  cases htop : top.isConstant <;> cases hsecond : second.isConstant <;>
    simp [found, htop, hsecond]

theorem targetSlot_eq :
    targetSlot alarm spelling { m with stack := top :: second :: below } =
      Eval.targetSlot spelling top second { m with stack := top :: second :: below } := by
  rw [targetSlot, bind_of_ok (peek_eq alarm _ rfl), Eval.targetSlot, ← found_eq top second below]
  cases top.isTarget with
  | true => rfl
  | false =>
    cases top.isVariable with
    | true => rfl
    | false =>
      have hpeek : peek alarm 1 { m with stack := top :: second :: below } = .ok second _ :=
        peek_eq alarm _ rfl
      rw [if_neg Bool.false_ne_true, if_neg Bool.false_ne_true, bind_of_ok hpeek]
      cases second.isTarget <;> rfl

/-- Looking for a target changes nothing. -/
theorem targetSlot_machine {slot : Slot} {m' : Machine}
    (h : Eval.targetSlot spelling top second m = .ok slot m') : m' = m := by
  rw [Eval.targetSlot] at h
  split at h
  · cases h
    rfl
  · split at h <;> cases h
    rfl

end

theorem onScratch_eq (op : Arithmetic) (value current : Quantity) (stack : List Quantity) :
    onScratch alarm [value, current] (arithmetic alarm spelling op) { m with stack := stack } =
      (match op.combine current value with
      | some result => pure result
      | none => refuse (.divisionByZero spelling) : Eval Quantity) { m with stack := stack } := by
  have h : arithmetic alarm spelling op _ = _ := arithmetic_eq alarm m value current [] op
  rw [onScratch, bind_of_ok (stack_eq _), bind_of_ok (setStack_eq _ _)]
  cases hop : op.combine current value with
  | some result =>
    rw [hop] at h
    have hrestoring : restoring stack (arithmetic alarm spelling op)
        { m with stack := [value, current] } = .ok ⟨⟩ { m with stack := [result] } := by
      rw [restoring, h]
      rfl
    rw [bind_of_ok hrestoring]
    rfl
  | none =>
    rw [hop] at h
    have hrestoring : restoring stack (arithmetic alarm spelling op)
        { m with stack := [value, current] } =
          refuse (.divisionByZero spelling) { m with stack := stack } := by
      rw [restoring, h]
      rfl
    rw [bind_of_error hrestoring]
    rfl

variable [DigitLimit]

theorem combined_eq (slot : Slot) (target value : Quantity) (below : List Quantity)
    (combine : Option Arithmetic) {β : Type} {f g : Quantity → Eval β}
    (hfg : ∀ result (m' : Machine), f result { m' with stack := result :: below } =
      g result m') :
    (combined alarm settings spelling slot target value combine >>= f)
        { m with stack := value :: below } =
      (Eval.combined settings spelling combine slot target value below >>= g)
        { m with stack := value :: below } := by
  cases combine with
  | none => exact hfg value { m with stack := value :: below }
  | some op =>
    simp only [combined, Eval.combined, bind_assoc, pure_bind]
    rw [← slot.insertIdx_place]
    refine puttingBack_bind m (blind_confirm settings target) _ _ _ fun current m' => ?_
    -- The operation has a stack of its own, so only its result has to be put in place.
    have hscratch : onScratch alarm [value, current] (arithmetic alarm spelling op) _ = _ :=
      onScratch_eq alarm m' op value current (value :: below)
    cases hop : op.combine current value with
    | some result =>
      rw [hop] at hscratch
      rw [bind_of_ok (puttingBack_of_ok hscratch _ _),
        bind_of_ok (put_eq alarm _ (Nat.zero_lt_succ _) _)]
      exact hfg result { m' with stack := value :: below }
    | none =>
      rw [hop] at hscratch
      rw [bind_of_error (puttingBack_of_failed hscratch _ _)]
      rfl

theorem assignTo_eq (combine : Option Arithmetic) (slot : Slot) (target value : Quantity)
    (below : List Quantity) :
    assignTo alarm settings spelling combine slot
        { m with stack := slot.insert target value below } =
      Eval.assignTo settings spelling combine slot target value below
        { m with stack := slot.insert target value below } := by
  have htake : take alarm slot.place { m with stack := slot.insert target value below } =
      .ok target { m with stack := value :: below } := by
    cases slot <;> rfl
  rw [assignTo, Eval.assignTo, bind_of_ok htake, bind_of_ok (peek_eq alarm _ rfl),
    bind_of_ok (setStack_eq _ _), ← slot.insertIdx_place target value]
  refine puttingBack_bind m (blind_confirm settings value) _ _ _ fun value m' => ?_
  rw [bind_of_ok (put_eq alarm _ (Nat.zero_lt_succ _) _), bind_of_ok (setStack_eq _ _)]
  refine combined_eq alarm m' slot target value below combine fun result m' => ?_
  rw [assignResult, bind_of_ok (setStack_eq _ _), ← slot.insertIdx_place target result]
  rw [bind_of_ok (get_eq _), bind_of_ok (get_eq _)]
  dsimp only
  cases m'.store.assign (target.given result) <;> rfl

/-! ## All actions -/

theorem perform_eq (hformula : ∀ q text, Blind (formula q text)) {action : Action}
    {stack : List Quantity} (hcount : action.operands ≤ stack.length) :
    perform alarm settings formula spelling action { m with stack := stack } =
      Eval.perform settings formula spelling action stack { m with stack := stack } := by
  have hone (h : 1 ≤ stack.length) : ∃ q below, stack = q :: below :=
    List.exists_cons_of_length_pos h
  have htwo (h : 2 ≤ stack.length) : ∃ top second below, stack = top :: second :: below := by
    obtain ⟨top, rest, rfl⟩ := hone (by omega)
    obtain ⟨second, below, rfl⟩ := List.exists_cons_of_length_pos (Nat.lt_of_succ_lt_succ h)
    exact ⟨top, second, below, rfl⟩
  cases action with
  | arithmetic op =>
    obtain ⟨right, left, below, rfl⟩ := htwo hcount
    exact arithmetic_eq alarm m right left below op
  | elementary f =>
    obtain ⟨q, below, rfl⟩ := hone hcount
    exact elementary_eq alarm m below q f
  | circular f =>
    obtain ⟨q, below, rfl⟩ := hone hcount
    rw [perform, bind_of_ok (take_eq alarm _ rfl), Eval.perform, bind_of_ok (setStack_eq _ _)]
    exact puttingBack_bind m (blind_toRadians settings hformula q) 0 q below fun _ _ => rfl
  | inverse f =>
    obtain ⟨q, below, rfl⟩ := hone hcount
    rw [perform, bind_of_ok (take_eq alarm _ rfl), Eval.perform, bind_of_ok (setStack_eq _ _)]
    exact puttingBack_bind m (blind_fromRadians settings hformula _) 0 q below fun _ _ => rfl
  | drop =>
    obtain ⟨q, below, rfl⟩ := hone hcount
    rfl
  | swap =>
    obtain ⟨top, rest, rfl⟩ := hone hcount
    cases rest with
    | nil => rfl
    | cons second below => rfl
  | convert =>
    obtain ⟨target, q, below, rfl⟩ := htwo hcount
    rw [perform, bind_of_ok (take_eq alarm _ rfl), bind_of_ok (peek_eq alarm _ rfl), Eval.perform,
      bind_of_ok (setStack_eq _ _)]
    exact puttingBack_bind m (blind_convertTo settings hformula q target) 0 target (q :: below)
      fun _ _ => rfl
  | assign combine =>
    obtain ⟨top, second, below, rfl⟩ := htwo hcount
    rw [perform, Eval.perform]
    refine bind_eq_of_ok (targetSlot_eq alarm m top second below) fun slot m' hslot => ?_
    rw [targetSlot_eq] at hslot
    obtain rfl := targetSlot_machine _ _ _ hslot
    cases slot with
    | top => exact assignTo_eq alarm m combine .top top second below
    | below => exact assignTo_eq alarm m combine .below second top below
  | opening _ => rfl
  | closing => rfl
  | separator => rfl

/-! ## Operators -/

theorem confirmEach_append (places places' : List Nat) :
    confirmEach alarm settings (places ++ places') =
      (confirmEach alarm settings places >>= fun _ => confirmEach alarm settings places') := by
  induction places with
  | nil => rfl
  | cons place places ih => simp only [List.cons_append, confirmEach, ih, bind_assoc]

theorem confirmEach_singleton {place : Nat} (hplace : place < m.stack.length) :
    confirmEach alarm settings [place] m = confirmAt settings place m := by
  have hq : m.stack[place]? = some m.stack[place] := List.getElem?_eq_getElem hplace
  rw [confirmEach, bind_of_ok (peek_eq alarm m hq), confirmAt, bind_of_ok (stack_eq m), hq]
  refine bind_eq_of_ok rfl fun q m' hconfirm => ?_
  have hstack : m'.stack = m.stack := ((blind_confirm settings _).ends_stack m).of_ok hconfirm
  rw [bind_of_ok (put_eq alarm m' (hstack ▸ hplace) q)]
  rfl

/-- From the top down, there is a value at each place that is confirmed. -/
theorem confirmEach_range {count : Nat} (hcount : count ≤ m.stack.length) :
    confirmEach alarm settings (List.range count) m = confirmTop settings count m := by
  induction count with
  | zero => rfl
  | succ count ih =>
    -- The last place is the lowest one, and the stack below the others is as before.
    have hbefore := ih (by omega)
    rw [List.range_succ, confirmEach_append, confirmTop]
    refine bind_eq_of_ok hbefore fun _ m' h => confirmEach_singleton alarm m' ?_
    rw [(keepsStack_confirmTop (by omega) (hbefore ▸ h)).length_eq]
    omega

/-- No access to the stack and no step of arithmetic raises an alarm when an
    operator is applied. -/
theorem apply_eq (hformula : ∀ q text, Blind (formula q text)) (o : Operator) :
    Guarded.apply alarm settings formula o = Eval.apply settings formula o := by
  funext m
  rw [Guarded.apply, Eval.apply, bind_of_ok (stack_eq m), bind_of_ok (stack_eq m)]
  split
  · rfl
  · split
    · rfl
    · rename_i hcount
      rw [not_lt] at hcount
      have hconfirmed := (confirmed_le_operands o.action).trans hcount
      have htop : confirmEach alarm settings _ m = _ := confirmEach_range alarm m hconfirmed
      rw [places_eq]
      refine bind_eq_of_ok htop fun _ m' h => ?_
      -- Bringing values up to date takes none off: there are still enough.
      have hlength := (keepsStack_confirmTop hconfirmed (htop ▸ h)).length_eq
      have hperform : perform alarm settings formula o.spelling o.action m' = _ :=
        perform_eq alarm m' hformula (by omega)
      rw [andAlways, andAlways, bind_of_ok (stack_eq m'), ← hperform]

end Guarded

end Reckoner
