import Reckoner.Evaluation.Confirm
import Reckoner.Evaluation.Convert
import Reckoner.Operator

/-!
# Performing operators

An operator takes its operands from the top of the stack and leaves its result
there (`apply`). It needs enough of them, and most operators bring them up to
date before; an operator that fails puts its operands back.

After an operator, whether it failed or not, the value on top has to have a
text, or the line is interrupted.
-/

namespace Reckoner

namespace Eval

/-- Brings the value at the given place up to date, from the top of the
    stack. -/
def confirmAt [DigitLimit] (settings : Settings) (place : Nat) : Eval PUnit := do
  match (← stack)[place]? with
  | some q =>
    let q ← q.confirm settings
    setStack ((← stack).set place q)
  | none => return ⟨⟩

/-- Brings the given number of values up to date, from the top down. -/
def confirmTop [DigitLimit] (settings : Settings) : (count : Nat) → Eval PUnit
  | 0 => return ⟨⟩
  | count + 1 => do
    confirmTop settings count
    confirmAt settings count

/-- The value on top has a text. -/
def showTop (settings : Settings) : Eval PUnit := do
  match (← stack) with
  | top :: _ => discard (shown settings top)
  | [] => return ⟨⟩

/-- All values have a text, those below first. -/
def showStack (settings : Settings) : Eval PUnit := do
  (← stack).reverse.forM fun q => discard (shown settings q)

end Eval

namespace Quantity

/-- A name that can be assigned to. -/
def isTarget (q : Quantity) : Bool :=
  q.isVariable && q.name != "" && !q.isConstant

/-- The target with the value of a result. -/
def given (target result : Quantity) : Quantity :=
  { target with
    magnitude := result.magnitude
    measure := result.measure
    format := result.format
    literal := ""
    isVariable := true
    isUnset := false
    isConstant := false }

end Quantity

/-! ## Assignments -/

/-- Where the target of an assignment is. -/
inductive Slot
  /-- On top, above its value, as in `3 =y`. -/
  | top
  /-- Below its value, as in `y = 3`. -/
  | below
deriving DecidableEq

/-- The stack with the target in its slot again. -/
def Slot.insert (slot : Slot) (target value : Quantity) (below : List Quantity) : List Quantity :=
  match slot with
  | top => target :: value :: below
  | .below => value :: target :: below

namespace Eval

/-- Where the target is among the two values on top: on top if that can be one,
    and else below it, unless a name is on top. -/
def targetSlot (spelling : String) (top second : Quantity) : Eval Slot := do
  if top.isTarget then return .top
  else if !top.isVariable && second.isTarget then return .below
  else
    refuse (.noTarget spelling
      (if top.isConstant then .constant top.name
      else if second.isConstant then .constant second.name
      else .value))

/-- The result that is assigned: the value, or what combining the value of the
    target with it gives. -/
def combined [DigitLimit] (settings : Settings) (spelling : String)
    (combine : Option Arithmetic) (slot : Slot) (target value : Quantity)
    (below : List Quantity) : Eval Quantity :=
  match combine with
  | none => return value
  | some op => do
    let current ← restoring (slot.insert target value below) (target.confirm settings)
    match op.combine current value with
    | some result => return result
    | none =>
      setStack (slot.insert target value below)
      refuse (.divisionByZero spelling)

/-- Gives the target the result, which takes the place of both on the stack. -/
def assignResult (slot : Slot) (target result : Quantity) (below : List Quantity) : Eval PUnit := do
  setStack (result :: below)
  match (← get).store.assign (target.given result) with
  | .ok store => modify fun machine => { machine with store := store }
  | .error f =>
    setStack (slot.insert target result below)
    refuse f

/-- Assigns the value to the target, which is off the stack while both are
    brought up to date. Below them is the rest of the stack. -/
def assignTo [DigitLimit] (settings : Settings) (spelling : String)
    (combine : Option Arithmetic) (slot : Slot) (target value : Quantity)
    (below : List Quantity) : Eval PUnit := do
  setStack (value :: below)
  let value ← restoring (slot.insert target value below) (value.confirm settings)
  setStack (value :: below)
  let result ← combined settings spelling combine slot target value below
  assignResult slot target result below

/-! ## Operators -/

/-- Carries out an action on a stack with enough values for it. The spelling is
    that of the operator. -/
def perform [DigitLimit] (settings : Settings) (formula : Formula) (spelling : String) :
    Action → List Quantity → Eval PUnit
  | .arithmetic op, right :: left :: below =>
    match op.combine left right with
    | some q => setStack (q :: below)
    | none => refuse (.divisionByZero spelling)
  | .elementary f, q :: below =>
    match f.of q with
    | some q => setStack (q :: below)
    | none => refuse (.divisionByZero spelling)
  | .circular f, q :: below => do
    setStack below
    let angle ← restoring (q :: below) (q.toRadians settings formula)
    setStack ({ magnitude := .real (f.value angle.magnitude.toReal), format := q.format } :: below)
  | .inverse f, q :: below => do
    setStack below
    let angle : Quantity :=
      { magnitude := .real (f.angle q.magnitude.toReal), format := q.format }
    let angle ← restoring (q :: below) (angle.fromRadians settings formula)
    setStack (angle :: below)
  | .drop, _ :: below => setStack below
  | .swap, top :: second :: below => setStack (second :: top :: below)
  | .swap, _ => refuse .nothingToSwap
  | .convert, target :: q :: below => do
    setStack (q :: below)
    let q ← restoring (target :: q :: below) (q.convertTo settings formula target)
    setStack (q :: below)
  | .assign combine, top :: second :: below => do
    match ← targetSlot spelling top second with
    | .top => assignTo settings spelling combine .top top second below
    | .below => assignTo settings spelling combine .below second top below
  | _, _ => return ⟨⟩

/-- Applies an operator to the stack. -/
def apply [DigitLimit] (settings : Settings) (formula : Formula) (o : Operator) : Eval PUnit := do
  let present := (← stack).length
  if !o.action.isImplemented then refuse (.notImplemented o.spelling)
  else if present < o.action.operands then
    refuse (.missingOperands o.spelling o.action.operands present)
  else
    confirmTop settings o.action.confirmed
    andAlways
      (do perform settings formula o.spelling o.action (← stack))
      (showTop settings)

end Eval

end Reckoner
