import Reckoner.Json
import Reckoner.Session

/-!
# Reports

What came of a line, as data: the stack and the warnings in either case, and
the value of the line or the error it ended in. A report is a JSON object with
its members in a fixed order (`Report.json`).
-/

namespace Reckoner

/-- What came of a line. -/
inductive Outcome
  | error (text code : String)
  /-- The value, and its text. -/
  | value (q : Quantity) (text : String)
  /-- No value, as nothing is on the stack. -/
  | nothing
deriving DecidableEq

/-- The report of a line. -/
structure Report where
  stack : List String
  warnings : List String
  outcome : Outcome
deriving DecidableEq

namespace Report

/-- The report of the last line of a session, which had the given result. -/
def ofResult (settings : Settings) (s : Session) (result : Option Quantity) :
    Except Format.Refusal Report := do
  let stack ← Session.stackLines settings s.machine.stack
  let warnings := Message.warnings s.messages
  match Message.lastError? s.messages, result with
  | some m, _ =>
    return ⟨stack, warnings, .error m.text ((m.kind.map ErrorKind.code).getD "Error")⟩
  | none, some q => return ⟨stack, warnings, .value q (← q.text settings)⟩
  | none, none => return ⟨stack, warnings, .nothing⟩

/-- Evaluates a line in a session, and reports. -/
def evaluate [DigitLimit] (settings : Settings) (text : String) (s : Session) :
    Except Fault Report × Session :=
  match s.execute settings text with
  | (.error f, s) => (.error f, s)
  | (.ok result, s) =>
    match ofResult settings s result with
    | .ok report => (.ok report, s)
    | .error why => (.error (.unshowable why), s)

/-- The line that converts a quantity into a unit, each given by its text. -/
def conversionLine (quantity unit : String) : String :=
  quantity ++ "::" ++ unit

/-! ## As data -/

/-- The line succeeded. -/
def isOk (r : Report) : Bool :=
  match r.outcome with
  | .error .. => false
  | _ => true

/-- A magnitude as a JSON number. -/
def number : Magnitude → Json
  | .whole n => .whole n.toInt
  | .real x => .real x

/-- Texts as a JSON array. -/
def texts (ts : List String) : Json :=
  .array (ts.map .string)

/-- The report as a JSON object. -/
def json (r : Report) : Json :=
  match r.outcome with
  | .error text code => .object [
      ("ok", .bool false),
      ("error", .string text),
      ("error_code", .string code),
      ("stack", texts r.stack),
      ("warnings", texts r.warnings)]
  | .value q text => .object [
      ("ok", .bool true),
      ("stack", texts r.stack),
      ("warnings", texts r.warnings),
      ("result", .string text),
      ("value", number q.magnitude),
      ("type", .string (if q.magnitude.isWhole then "integer" else "float")),
      ("unit", .string q.measure.key),
      ("unit_category", .string q.measure.dimension.name)]
  | .nothing => .object [
      ("ok", .bool true),
      ("stack", texts r.stack),
      ("warnings", texts r.warnings),
      ("result", .string ""),
      ("value", .null),
      ("type", .null),
      ("unit", .string ""),
      ("unit_category", .null)]

end Report

end Reckoner
