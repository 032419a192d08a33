import Reckoner.Store

/-!
# The machine

Evaluation works on a machine: the stack of values, the store of names, the
messages so far, and the user who can be asked for the values of names. A step
of evaluation (`Eval`) changes the machine and may halt, because it failed
(with a message saying why) or because a fault interrupts it; either way the
machine stays as the step left it.
-/

namespace Reckoner

/-- What comes back from the user who is asked for a line. -/
inductive Reply
  | line (text : String)
  /-- There are no more lines. -/
  | endOfInput
  /-- The user interrupts. -/
  | interrupt
  /-- The user cannot be asked. -/
  | failure
deriving DecidableEq

/-- The state of evaluation. -/
structure Machine where
  /-- The values, the one on top first. -/
  stack : List Quantity
  store : Store
  messages : List Message
  /-- The replies to come, if there is a user; after the last one, there are no
      more lines. -/
  replies : Option (List Reply)
  /-- The names asked for so far. -/
  asked : List String
deriving DecidableEq

/-- A step of evaluation. -/
abbrev Eval := EStateM Halt Machine

namespace Eval

/-- Adds a message. -/
def say (m : Message) : Eval PUnit :=
  modify fun machine => { machine with messages := machine.messages ++ [m] }

/-- Fails, and says why. -/
def refuse {α : Type} (f : Failure) : Eval α := do
  say f.message
  throw .failed

/-- The stack. -/
def stack : Eval (List Quantity) :=
  return (← get).stack

/-- Puts another stack in place. -/
def setStack (stack : List Quantity) : Eval PUnit :=
  modify fun machine => { machine with stack := stack }

/-- The text of a quantity. -/
def shown (settings : Settings) (q : Quantity) : Eval String :=
  match q.text settings with
  | .ok text => return text
  | .error why => throw (.fault (.unshowable why))

/-- On failing, puts the given stack back. -/
def restoring {α : Type} (stack : List Quantity) (x : Eval α) : Eval α := fun machine =>
  match x machine with
  | .error .failed machine => .error .failed { machine with stack := stack }
  | result => result

/-- Does `y` after `x`, also after `x` has failed. -/
def andAlways (x y : Eval PUnit) : Eval PUnit := fun machine =>
  match x machine with
  | .error .failed machine =>
    match y machine with
    | .ok _ machine => .error .failed machine
    | result => result
  | .ok _ machine => y machine
  | result => result

/-- Does `y` after `x` has failed. -/
def onFailure (x y : Eval PUnit) : Eval PUnit := fun machine =>
  match x machine with
  | .error .failed machine =>
    match y machine with
    | .ok _ machine => .error .failed machine
    | result => result
  | result => result

end Eval

end Reckoner
