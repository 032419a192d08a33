import Reckoner.Format.Directive

/-!
# Messages

What the calculator has to say about a line, apart from its value: messages
with a severity and, for most errors, a kind (`Message`). Errors have causes
(`Failure`), each with its kind and its wording.

A *fault* is not a message: it is what interrupts a line altogether, because a
question was broken off, a default format cannot show a number or a numeral has
too many digits. Reading runs into failures and faults alike (`Snag`); what is
done with a line halts for a fault, or because it failed and has said why
(`Halt`).
-/

namespace Reckoner

/-! ## Messages -/

/-- The kinds of errors. -/
inductive ErrorKind
  | malformedNumber
  | unknownUnit
  | unknownFunction
  | missingOperand
  | unresolvedVariable
  | conversionNotSupported
  | divisionByZero
  | assignmentTargetInvalid
  | unbalancedGroup
  | inputTooLong
deriving DecidableEq

namespace ErrorKind

/-- All kinds. -/
def all : List ErrorKind := [
  malformedNumber,
  unknownUnit,
  unknownFunction,
  missingOperand,
  unresolvedVariable,
  conversionNotSupported,
  divisionByZero,
  assignmentTargetInvalid,
  unbalancedGroup,
  inputTooLong
]

/-- The code of a kind. -/
def code : ErrorKind → String
  | malformedNumber => "MalformedNumber"
  | unknownUnit => "UnknownUnit"
  | unknownFunction => "UnknownFunction"
  | missingOperand => "MissingOperand"
  | unresolvedVariable => "UnresolvedVariable"
  | conversionNotSupported => "ConversionNotSupported"
  | divisionByZero => "DivisionByZero"
  | assignmentTargetInvalid => "AssignmentTargetInvalid"
  | unbalancedGroup => "UnbalancedGroup"
  | inputTooLong => "InputTooLong"

/-- The kind with the given code. -/
def ofCode? (code : String) : Option ErrorKind :=
  all.find? fun kind => kind.code == code

theorem ofCode?_code (kind : ErrorKind) : ofCode? kind.code = some kind := by
  cases kind <;> decide

end ErrorKind

/-- How grave a message is. -/
inductive Severity
  | info
  | warning
  | error
deriving DecidableEq

/-- The name of a severity. -/
def Severity.name : Severity → String
  | info => "info"
  | warning => "warning"
  | error => "error"

/-- A message. -/
structure Message where
  severity : Severity
  kind : Option ErrorKind
  text : String
deriving DecidableEq

namespace Message

/-- A message with its severity and kind in front. -/
def line (m : Message) : String :=
  match m.kind with
  | some kind => m.severity.name ++ ": [" ++ kind.code ++ "] " ++ m.text
  | none => m.severity.name ++ ": " ++ m.text

/-- The message is an error. -/
def isError (m : Message) : Bool :=
  m.severity == .error

/-- The message is a warning. -/
def isWarning (m : Message) : Bool :=
  m.severity == .warning

/-- The errors among messages. -/
def errors (messages : List Message) : List Message :=
  messages.filter isError

/-- The last error among messages. -/
def lastError? (messages : List Message) : Option Message :=
  (errors messages).getLast?

/-- The texts of the warnings among messages. -/
def warnings (messages : List Message) : List String :=
  (messages.filter isWarning).map text

/-- Some message has the given kind. -/
def hasKind (messages : List Message) (kind : ErrorKind) : Bool :=
  messages.any fun m => m.kind == some kind

/-- All messages in one line. -/
def summary (messages : List Message) : String :=
  "; ".intercalate (messages.map line)

end Message

/-! ## Failures -/

/-- What an assignment found where it looked for a name. -/
inductive NoTarget
  | constant (name : String)
  | value
deriving DecidableEq

/-- Why a line cannot be read or evaluated. -/
inductive Failure
  /-- The text does not begin with a number. -/
  | notANumber (text : String)
  /-- The word, or the character, spells no unit. -/
  | unknownUnit (word : String)
  /-- The text begins with no operator and no name. -/
  | unknownName (text : String)
  /-- The operator only stands for itself so far. -/
  | notImplemented (spelling : String)
  | missingOperands (spelling : String) (needed present : Nat)
  | nothingToSwap
  /-- The name has no value, and nobody can be asked for one. -/
  | noValue (name : String)
  /-- The name has no value after the last question. -/
  | noUsableAnswer (name : String)
  /-- No rule converts the quantity. -/
  | noConversion (quantity target : String)
  | targetWithoutUnit
  | formulaTooDeep (limit : Int)
  | formulaWithoutResult (formula : String)
  | divisionByZero (operation : String)
  /-- There is no name to assign to. -/
  | noTarget (spelling : String) (found : NoTarget)
  | unnamedTarget
  | constantTarget (name : String)
  | tooLong (limit : Int)
deriving DecidableEq

namespace Failure

/-- The kind of a failure. -/
def kind : Failure → ErrorKind
  | notANumber _ => .malformedNumber
  | unknownUnit _ => .unknownUnit
  | unknownName _ | notImplemented _ => .unknownFunction
  | missingOperands .. | nothingToSwap => .missingOperand
  | noValue _ | noUsableAnswer _ => .unresolvedVariable
  | noConversion .. | targetWithoutUnit | formulaTooDeep _ | formulaWithoutResult _ =>
    .conversionNotSupported
  | divisionByZero _ => .divisionByZero
  | noTarget .. | unnamedTarget | constantTarget _ => .assignmentTargetInvalid
  | tooLong _ => .inputTooLong

/-- The wording of a failure. -/
def text : Failure → String
  | notANumber text => s!"'{text}' is not a number"
  | unknownUnit word => s!"Unknown unit '{word}'"
  | unknownName text => s!"Could not find function or variable at '{text}'"
  | notImplemented spelling => s!"'{spelling}' is not implemented yet"
  | missingOperands spelling needed present =>
    s!"'{spelling}' needs {needed} value(s), stack has {present}"
  | nothingToSwap => "'swap' needs two values"
  | noValue name => s!"Variable '{name}' has no value"
  | noUsableAnswer name => s!"No usable value entered for '{name}'"
  | noConversion quantity target => s!"Conversion from {quantity} to {target} is not supported"
  | targetWithoutUnit => "Conversion target has no unit"
  | formulaTooDeep limit => s!"Conversion formulas nested deeper than {limit}"
  | formulaWithoutResult formula => s!"Formula '{formula}' produced no result"
  | divisionByZero operation => s!"'{operation}' by zero"
  | noTarget spelling (.constant name) =>
    s!"Assignment ({spelling}) into constant '{name}' cannot be executed"
  | noTarget spelling .value => s!"Assignment ({spelling}) into a non-variable cannot be executed"
  | unnamedTarget => "Assignment target has no name"
  | constantTarget name => s!"Cannot assign to constant '{name}'"
  | tooLong limit => s!"Input longer than {limit} characters"

/-- The message of a failure. -/
def message (f : Failure) : Message :=
  ⟨.error, some f.kind, f.text⟩

end Failure

/-! ## Faults -/

/-- What interrupts a line. -/
inductive Fault
  /-- A question was broken off. -/
  | interrupted
  /-- A question could not be put. -/
  | unanswerable
  /-- A default format cannot show a number. -/
  | unshowable (why : Format.Refusal)
  /-- The numeral of a whole number has more digits than it may have. -/
  | tooManyDigits (most count : Nat)
deriving DecidableEq

/-- The wording of a fault. -/
def Fault.text : Fault → String
  | interrupted | unanswerable => ""
  | unshowable why => why.text
  | tooManyDigits most count =>
    s!"Exceeds the limit ({most} digits) for integer string conversion: " ++
      s!"value has {count} digits; use sys.set_int_max_str_digits() to increase the limit"

/-- What reading runs into. -/
inductive Snag
  | failure (f : Failure)
  | fault (f : Fault)
deriving DecidableEq

/-- The kind of a failure. A fault has none. -/
def Snag.kind? : Snag → Option ErrorKind
  | failure f => some f.kind
  | fault _ => none

/-- Why something halts. -/
inductive Halt
  /-- It failed; the last error message says why. -/
  | failed
  | fault (f : Fault)
deriving DecidableEq

end Reckoner
