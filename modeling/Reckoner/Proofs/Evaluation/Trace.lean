import Reckoner.Evaluation.Run

/-!
# What operands resolve to

Operators bring their operands up to date one by one, each on the machine that the
ones before have left. What each of them resolves to is followed here along a run: a
`Trace` goes as evaluation goes, and runs all that is in between on the way to the next
operand.
-/

namespace Reckoner

/-- An operand as an operator finds it, and the value it has brought it up to. -/
structure Resolution where
  operand : Quantity
  value : Quantity
deriving DecidableEq

/-- What operators resolve in a step, by the machine that it is run on. -/
abbrev Trace := Machine → List Resolution

/-- What is resolved in evaluating formulas. -/
abbrev FormulaTrace := Quantity → String → Trace

namespace Trace

/-- Nothing is resolved. -/
def silent : Trace := fun _ => []

/-- The trace of a step `x`, and what follows where it leads to a result. -/
def andThen {α : Type} (t : Trace) (x : Eval α) (u : α → Trace) : Trace := fun m =>
  t m ++
    match x m with
    | .ok a m => u a m
    | .error .. => []

/-- What follows a step in which nothing is resolved. -/
def behind {α : Type} (x : Eval α) (u : α → Trace) : Trace :=
  silent.andThen x u

variable [DigitLimit] (settings : Settings)

/-- The operand is resolved, unless it has no value. -/
def confirm (q : Quantity) : Trace := fun m =>
  match q.confirm settings m with
  | .ok value _ => [⟨q, value⟩]
  | .error .. => []

def confirmAt (place : Nat) : Trace :=
  behind Eval.stack fun stack =>
    match stack[place]? with
    | some q => confirm settings q
    | none => silent

def confirmTop : (count : Nat) → Trace
  | 0 => silent
  | count + 1 =>
    (confirmTop count).andThen (Eval.confirmTop settings count) fun _ => confirmAt settings count

section

variable (formula : Formula) (trace : FormulaTrace)

def byRule (q : Quantity) (source target : Measure) : Trace :=
  match Measure.rule? settings.rules source target with
  | some r => trace (q.realIn .plain "") r.formula
  | none => silent

def convertTo (q target : Quantity) : Trace :=
  if target.measure.isPlain || q.measure.sameAs target.measure then silent
  else byRule settings trace q q.measure target.measure

def toRadians (q : Quantity) : Trace :=
  if q.measure.isRadians || settings.angle = .rad then silent
  else byRule settings trace q .degrees .radians

def fromRadians (q : Quantity) : Trace :=
  if settings.angle = .rad then silent
  else byRule settings trace q .radians .degrees

/-- The value is brought up to date, and so is the target if they are combined. -/
def assignTo (combine : Option Arithmetic) (slot : Slot) (target value : Quantity)
    (below : List Quantity) : Trace :=
  behind (Eval.setStack (value :: below)) fun _ =>
    (confirm settings value).andThen
      (Eval.restoring (slot.insert target value below) (value.confirm settings)) fun value =>
        behind (Eval.setStack (value :: below)) fun _ =>
          match combine with
          | some _ => confirm settings target
          | none => silent

def perform (spelling : String) : Action → List Quantity → Trace
  | .circular _, q :: below =>
    behind (Eval.setStack below) fun _ => toRadians settings trace q
  | .inverse f, q :: below =>
    behind (Eval.setStack below) fun _ =>
      fromRadians settings trace
        { magnitude := .real (f.angle q.magnitude.toReal), format := q.format }
  | .convert, target :: q :: below =>
    behind (Eval.setStack (q :: below)) fun _ => convertTo settings trace q target
  | .assign combine, top :: second :: below =>
    behind (Eval.targetSlot spelling top second) fun
      | .top => assignTo settings combine .top top second below
      | .below => assignTo settings combine .below second top below
  | _, _ => silent

/-- An operator that has enough operands brings them up to date, and then is carried
    out. -/
def apply (o : Operator) : Trace :=
  behind Eval.stack fun stack =>
    if !o.action.isImplemented || stack.length < o.action.operands then silent
    else
      (confirmTop settings o.action.confirmed).andThen
        (Eval.confirmTop settings o.action.confirmed) fun _ =>
          behind Eval.stack fun stack => perform settings trace o.spelling o.action stack

mutual

def node : Node → Trace
  | ⟨_, operator, prior, params, children⟩ =>
    behind (Eval.push prior) fun _ =>
      (each children).andThen (Eval.runEach settings formula children) fun _ =>
        behind (Eval.push params) fun _ =>
          match operator with
          | some o => apply settings trace o
          | none => silent

def each : List Node → Trace
  | [] => silent
  | n :: nodes =>
    (node n).andThen (Eval.runNode settings formula n) fun _ => each nodes

end

end

/-- The trace of the run of a formula. -/
def evalPass (trace : List Node → Trace) : FormulaTrace := fun seed formula m =>
  match Node.readText (some seed) ⟨formula.toList, m.store, []⟩ with
  | (.error _, _) => []
  | (.ok nodes, reader) =>
    trace nodes { m with stack := [], store := reader.store, messages := reader.messages }

def evalFormula : (levels : Nat) → FormulaTrace
  | 0 => fun _ _ => silent
  | levels + 1 => evalPass (each settings (Eval.evalFormula settings levels) (evalFormula levels))

end Trace

end Reckoner
