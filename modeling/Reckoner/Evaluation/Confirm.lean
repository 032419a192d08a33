import Reckoner.Evaluation.Machine
import Reckoner.Literal
import Reckoner.Text.Space

/-!
# Bringing names up to date

Before a value is used, a name in it is brought up to date (`confirm`). A name
in the store takes the value it has there; the user is asked for any other one.
A question is put three times at most. An answer that reads as one literal is
kept in the store; a blank one, or none, stands for zero this once and is not
kept.
-/

namespace Reckoner

namespace Eval

/-- Puts a question to the user. -/
def question (name : String) : Eval String := do
  let machine ← get
  let replies := machine.replies.getD []
  set { machine with
    replies := machine.replies.map List.tail
    asked := machine.asked ++ [name] }
  match replies with
  | .line text :: _ => return text
  | .interrupt :: _ => throw (.fault .interrupted)
  | .failure :: _ => throw (.fault .unanswerable)
  | .endOfInput :: _ | [] => return ""

/-- Gives a name its value, or says why it cannot have one. -/
def keep (q : Quantity) : Eval PUnit := do
  match (← get).store.assign q with
  | .ok store => modify fun machine => { machine with store := store }
  | .error f => say f.message

end Eval

namespace Quantity

/-- The literal that an answer is, if it is one and nothing else. -/
def ofAnswer? [DigitLimit] (answer : List Char) : Except Fault (Option Quantity) :=
  match readLiteral answer with
  | .ok q rest => .ok (if (Text.skipBlanks rest).isEmpty then some q else none)
  | .error (.failure _) _ => .ok none
  | .error (.fault f) _ => .error f

/-- The name with a magnitude and no doubt about it. -/
def resolved (q : Quantity) (magnitude : Magnitude) : Quantity :=
  { q with magnitude := magnitude, isVariable := true, isUnset := false, isConstant := false }

/-- The name with the value of a literal; the unit of the literal counts before
    that of the name. -/
def answered (q literal : Quantity) : Quantity :=
  { q.resolved literal.magnitude with
    measure := literal.measure.orElse q.measure
    format := literal.format }

/-- The name with its value in the store; the unit of the name counts before
    that of the value. -/
def updated (q stored : Quantity) : Quantity :=
  { q.resolved stored.magnitude with
    measure := q.measure.orElse stored.measure
    format := stored.format }

/-- Asks for the value of a name, as often as given. -/
def ask [DigitLimit] : (attempts : Nat) → Quantity → Eval Quantity
  | 0, q => Eval.refuse (.noUsableAnswer q.name)
  | attempts + 1, q => do
    let answer := Text.strip (← Eval.question q.name).toList
    if answer.isEmpty then return q.resolved (.whole 0)
    else
      match ofAnswer? answer with
      | .ok (some literal) =>
        Eval.keep (q.answered literal)
        return q.answered literal
      | .ok none =>
        Eval.say ⟨.warning, none,
          s!"Could not read '{String.ofList answer}' as a value for '{q.name}'"⟩
        ask attempts q
      | .error f => throw (.fault f)

/-- How often a question is put. -/
def maxAttempts : Nat := 3

/-- The value as it is to be used. -/
def confirm [DigitLimit] (settings : Settings) (q : Quantity) : Eval Quantity := do
  if !q.isVariable || q.isConstant then return q
  else
    let machine ← get
    match machine.store.find? q.name with
    | some e => return q.updated e.quantity
    | none =>
      if machine.replies.isNone then Eval.refuse (.noValue q.name)
      else
        if settings.announcesQuestions then
          Eval.say ⟨.info, none, s!"Variable '{q.name}' is undefined, asking for a value"⟩
        ask maxAttempts q

end Quantity

end Reckoner
