import Reckoner.Evaluation.Perform
import Reckoner.Node.Build

/-!
# Running nodes

Running a node pushes the operands before its operator, runs the nodes nested
in it, pushes the operands behind the operator and applies that. The first
failure ends a run; what is on the stack then stays there.

A formula is a run of its own: its nodes begin with the value it continues, its
stack is empty before and forgotten afterwards, and its messages are passed on
only if it fails. The store is shared with the line around it. A formula whose
operators need formulas nests them; each level takes one off the number left
(`evalFormula`), and none is evaluated once there are no more.
-/

namespace Reckoner

namespace Eval

/-- Pushes quantities, the first one first. -/
def push (qs : List Quantity) : Eval PUnit := do
  setStack (qs.reverse ++ (← stack))

mutual

/-- Runs a node. -/
def runNode [DigitLimit] (settings : Settings) (formula : Formula) : Node → Eval PUnit
  | ⟨_, operator, prior, params, children⟩ => do
    push prior
    runEach settings formula children
    push params
    match operator with
    | some o => apply settings formula o
    | none => return ⟨⟩

/-- Runs nodes one after another. -/
def runEach [DigitLimit] (settings : Settings) (formula : Formula) : List Node → Eval PUnit
  | [] => return ⟨⟩
  | node :: nodes => do
    runNode settings formula node
    runEach settings formula nodes

end

/-- Runs the nodes of a line. After a failure, all values have to have a
    text. -/
def runLine [DigitLimit] (settings : Settings) (formula : Formula) (nodes : List Node) :
    Eval PUnit :=
  onFailure (runEach settings formula nodes) (showStack settings)

/-- Evaluates a formula by running it in the given way. -/
def evalPass [DigitLimit] (run : List Node → Eval PUnit) : Formula := fun seed formula machine =>
  match Node.readText (some seed) ⟨formula.toList, machine.store, []⟩ with
  | (.error .failed, reader) =>
    .error .failed { machine with
      store := reader.store, messages := machine.messages ++ reader.messages }
  | (.error (.fault f), reader) => .error (.fault f) { machine with store := reader.store }
  | (.ok nodes, reader) =>
    let before := { machine with
      stack := [], store := reader.store, messages := reader.messages }
    match run nodes before with
    | .ok _ after =>
      match after.stack with
      | top :: _ => .ok top { after with stack := machine.stack, messages := machine.messages }
      | [] =>
        .error .failed { after with
          stack := machine.stack
          messages := machine.messages ++ after.messages ++
            [(Failure.formulaWithoutResult formula).message] }
    | .error .failed after =>
      .error .failed { after with
        stack := machine.stack
        messages := machine.messages ++ after.messages }
    | .error (.fault f) after =>
      .error (.fault f) { after with stack := machine.stack, messages := machine.messages }

/-- Evaluates formulas nested up to the given number of levels. -/
def evalFormula [DigitLimit] (settings : Settings) : (levels : Nat) → Formula
  | 0 => fun _ _ => refuse (.formulaTooDeep settings.maxDepth)
  | levels + 1 => evalPass (runLine settings (evalFormula settings levels))

end Eval

/-- How many levels of formulas there can be below the given depth. -/
def Settings.levelsBelow (settings : Settings) (depth : Int) : Nat :=
  (settings.maxDepth - depth).toNat

/-- How formulas are evaluated at the given depth. -/
def Settings.formulaAt [DigitLimit] (settings : Settings) (depth : Int) : Formula :=
  Eval.evalFormula settings (settings.levelsBelow depth)

end Reckoner
