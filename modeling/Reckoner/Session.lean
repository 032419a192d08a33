import Reckoner.Evaluation.Run

/-!
# Sessions

A session evaluates one line after another. The stack, the store and the
history of lines last; the messages are those of the last line, and so is the
tree.
-/

namespace Reckoner

/-- The state between two lines. -/
structure Session where
  machine : Machine
  /-- The lines so far. -/
  history : List String
  /-- The tree of the last line. -/
  nodes : List Node

/-- Why a line that has to succeed does not. -/
inductive Refused
  /-- It cannot be read. -/
  | unreadable (why : Message)
  /-- It cannot be evaluated. -/
  | failed (why : Message)
  | fault (f : Fault)
deriving DecidableEq

namespace Session

/-- A new session, with the given store and user. -/
def new (store : Store) (replies : Option (List Reply)) : Session where
  machine := ⟨[], store, [], replies, []⟩
  history := []
  nodes := []

/-- The messages of the last line. -/
def messages (s : Session) : List Message :=
  s.machine.messages

/-! ## Evaluating a line -/

/-- The session with what a line has been read into. -/
def reading (nodes : List Node) (reader : Reader) (s : Session) : Session :=
  { s with
    nodes := nodes
    machine := { s.machine with store := reader.store, messages := reader.messages } }

/-- Reads a line into the tree, and tells whether it could. -/
def parse [DigitLimit] (settings : Settings) (text : String) (s : Session) :
    Except Fault Bool × Session :=
  if settings.maxLength < text.length then
    (.ok false,
      { s with
        nodes := []
        machine := { s.machine with
          messages := s.machine.messages ++ [(Failure.tooLong settings.maxLength).message] } })
  else
    match Node.readText none ⟨text.toList, s.machine.store, s.machine.messages⟩ with
    | (.ok nodes, reader) => (.ok true, s.reading nodes reader)
    | (.error .failed, reader) => (.ok false, s.reading [] reader)
    | (.error (.fault f), reader) => (.error f, s.reading [] reader)

/-- Runs the tree. The result is the value on top, if the run succeeds and there
    is one. -/
def run [DigitLimit] (settings : Settings) (s : Session) :
    Except Fault (Option Quantity) × Session :=
  match Eval.runLine settings (settings.formulaAt 0) s.nodes s.machine with
  | .ok _ machine => (.ok machine.stack.head?, { s with machine := machine })
  | .error .failed machine => (.ok none, { s with machine := machine })
  | .error (.fault f) machine => (.error f, { s with machine := machine })

/-- The session as a new line begins. -/
def begun (text : String) (s : Session) : Session :=
  { s with
    machine := { s.machine with messages := [] }
    history := s.history ++ [text] }

/-- Evaluates a line. -/
def execute [DigitLimit] (settings : Settings) (text : String) (s : Session) :
    Except Fault (Option Quantity) × Session :=
  match (s.begun text).parse settings text with
  | (.ok true, s) => s.run settings
  | (.ok false, s) => (.ok none, s)
  | (.error f, s) => (.error f, s)

/-- Evaluates a line that has to succeed. -/
def executeStrictly [DigitLimit] (settings : Settings) (text : String) (s : Session) :
    Except Refused (Option Quantity) × Session :=
  match s.execute settings text with
  | (.error f, s) => (.error (.fault f), s)
  | (.ok result, s) =>
    match Message.lastError? s.messages with
    | none => (.ok result, s)
    | some why => (.error (if s.nodes.isEmpty then .unreadable why else .failed why), s)

/-! ## Between lines -/

/-- Clears the stack. -/
def clearStack (s : Session) : Session :=
  { s with machine := { s.machine with stack := [] } }

/-- Forgets all variables. -/
def clearVariables (s : Session) : Session :=
  { s with machine := { s.machine with store := s.machine.store.clear } }

/-! ## Listings -/

/-- A number in at least the given width, behind blanks. -/
def alignedNumber (width n : Nat) : String :=
  let digits := toString n
  String.ofList (List.replicate (width - digits.length) ' ') ++ digits

/-- The lines of a listing of the stack, the value on top last. -/
def stackLines (settings : Settings) : List Quantity → Except Format.Refusal (List String)
  | [] => return []
  | top :: below => do
    -- The values below first, as the first that has no text decides.
    let lines ← stackLines settings below
    let text ← top.text settings
    return lines ++ [text]

/-- A listing of the stack; the value on top has the number zero. -/
def stackText (settings : Settings) (s : Session) : Except Format.Refusal String := do
  if s.machine.stack.isEmpty then return "(stack is empty)"
  else
    let texts ← stackLines settings s.machine.stack
    return "\n".intercalate
      (texts.mapIdx fun i text => alignedNumber 3 (texts.length - i - 1) ++ ": " ++ text)

/-- The line of an entry in a listing. -/
def entryLine (settings : Settings) (e : Entry) : Except Format.Refusal String := do
  return e.name ++ " = " ++ (← e.quantity.text settings) ++
    (if e.isConstant then " (constant)" else "")

/-- A listing of the store, with its constants or without. -/
def storeText (settings : Settings) (withConstants : Bool) (s : Session) :
    Except Format.Refusal String := do
  let entries := if withConstants then s.machine.store.entries else s.machine.store.variableEntries
  if entries.isEmpty then return "(no variables)"
  else return "\n".intercalate (← entries.mapM (entryLine settings))

/-- The tree of the last line. -/
def treeText (settings : Settings) (s : Session) : Except Format.Refusal String := do
  return "\n".intercalate (← s.nodes.mapM (Node.describe settings))

end Session

end Reckoner
