import Reckoner.Repl
import Reckoner.Text.Digit

/-!
# The command line

The arguments of the program are options and words. The words are an expression
to evaluate; without any, and without one in an option, an interactive session
begins.

Arguments are read from left to right (`read`). An option with a long name can
be cut short as long as no other one begins alike, and can have its value behind
an equals sign; one of a single letter can have its value, or more letters, right
behind it or behind an equals sign. A negative number is a word and not an
option, as is everything behind `--`. The words have to stand together: those
behind an option that follows words have no place any more.

`--` is not a value. The next argument is none for an option if it is `--`, and
an option that has `--` right behind it, or behind an equals sign, has nothing.
-/

namespace Reckoner.CommandLine

/-! ## Options -/

/-- An option of the program. -/
inductive Flag
  | help
  | eval
  | angle
  | format
  | version
  | logLevel
  | logFile
deriving DecidableEq

namespace Flag

/-- The long names. -/
def longNames : List (String × Flag) := [
  ("--help", help),
  ("--eval", eval),
  ("--angle", angle),
  ("--format", format),
  ("--version", version),
  ("--log-level", logLevel),
  ("--log-file", logFile)
]

/-- The option of a single letter. -/
def ofLetter? : Char → Option Flag
  | 'h' => some help
  | 'e' => some eval
  | 'v' => some version
  | _ => none

/-- The option wants a value. -/
def takesValue : Flag → Bool
  | help | version => false
  | _ => true

end Flag

/-- What an argument is. -/
inductive Argument
  | word
  /-- An option with a long name, and the value behind an equals sign. -/
  | long (flag : Flag) (value : Option String)
  /-- An option of one letter, and what is behind the letter or behind an equals
      sign that follows it. -/
  | short (flag : Flag) (behind : Option (List Char))
  /-- More than one option begins like this. -/
  | ambiguous
  /-- It looks like an option, and is none. -/
  | unknown
deriving DecidableEq

/-- A minus sign and a number, perhaps with a point, at the end of a line. -/
def isNegativeNumber (arg : List Char) : Bool :=
  match arg with
  | '-' :: number =>
    let number := if number.getLast? = some '\n' then number.dropLast else number
    match number.dropWhile Text.isDecimal with
    | [] => !number.isEmpty
    | '.' :: places => !places.isEmpty && places.all Text.isDecimal
    | _ => false
  | _ => false

/-- What an argument is that begins with a minus sign and is no option in
    full. -/
def ofMinus (arg : List Char) : Argument :=
  if isNegativeNumber arg || arg.contains ' ' then .word else .unknown

/-- An argument beginning with two minus signs. -/
def ofLong (arg : List Char) : Argument :=
  let (name, rest) := arg.span (· != '=')
  let value := match rest with
    | _ :: value => some (String.ofList value)
    | [] => none
  match Flag.longNames.find? fun n => n.1 == String.ofList name with
  | some (_, flag) => .long flag value
  | none =>
    match Flag.longNames.filter fun n => Text.startsWith (String.ofList name) n.1.toList with
    | [] => ofMinus arg
    | [(_, flag)] => .long flag value
    | _ => .ambiguous

/-- What an argument is. -/
def classify (arg : List Char) : Argument :=
  match arg with
  | '-' :: '-' :: _ => ofLong arg
  | '-' :: letter :: behind =>
    match Flag.ofLetter? letter with
    | some flag =>
      match behind with
      | [] => .short flag none
      | '=' :: behind => .short flag (some behind)
      | behind => .short flag (some behind)
    | none => ofMinus arg
  | _ => .word

/-! ## Reading arguments -/

/-- What an option has for a value. -/
inductive Value
  | nothing
  | text (text : String)
deriving DecidableEq

/-- The value that is written as the given text. -/
def Value.ofText (text : String) : Value :=
  if text == "--" then nothing else .text text

/-- What the arguments say. -/
structure Options where
  /-- The words, once there are some. -/
  words : Option (List String)
  eval : Option Value
  angle : Option AngleUnit
  style : Style
  version : Bool
  /-- Some argument has no place. -/
  misplaced : Bool

/-- What is said without arguments. -/
def Options.initial : Options :=
  ⟨none, none, none, .human, false, false⟩

/-- Why the arguments do not say what to do. -/
inductive Unread
  /-- They ask for help. -/
  | help
  /-- They are wrong. -/
  | usage
deriving DecidableEq

/-- Sets an option to a text. -/
def Options.setText (o : Options) (flag : Flag) (text : String) : Except Unread Options :=
  match flag with
  | .eval => .ok { o with eval := some (.text text) }
  | .angle =>
    match AngleUnit.ofName? text with
    | some unit => .ok { o with angle := some unit }
    | none => .error .usage
  | .format =>
    if text == "json" then .ok { o with style := .json }
    else if text == "human" then .ok { o with style := .human }
    else .error .usage
  | .logLevel =>
    if ["DEBUG", "INFO", "WARNING", "ERROR"].contains text then .ok o else .error .usage
  | .logFile => .ok o
  | .help | .version => .error .usage

/-- Sets an option to nothing: it is as it is without arguments, but an
    expression is still asked for. -/
def Options.clear (o : Options) (flag : Flag) : Options :=
  match flag with
  | .eval => { o with eval := some .nothing }
  | .angle => { o with angle := none }
  | .format => { o with style := .human }
  | .help | .version | .logLevel | .logFile => o

/-- Sets an option to a value. -/
def Options.set (o : Options) (flag : Flag) (value : Value) : Except Unread Options :=
  match value with
  | .nothing => .ok (o.clear flag)
  | .text text => o.setText flag text

/-- Sets an option that has no value. -/
def Options.raise (o : Options) (flag : Flag) : Except Unread Options :=
  match flag with
  | .version => .ok { o with version := true }
  | .help => .error .help
  | _ => .error .usage

/-- How an argument with options ends. -/
inductive Ending
  | done
  /-- The last option has its value. -/
  | value (flag : Flag) (value : Value)
  /-- The last option wants a value, which the next argument has to be. -/
  | wanting (flag : Flag)
  /-- It is no option. -/
  | stray
deriving DecidableEq

/-- The options without a value in a group of letters, and how it ends. All that
    is behind the letter of an option with a value is its value. -/
def readLetters (flag : Flag) : List Char → Except Unread (List Flag × Ending)
  | [] => if flag.takesValue then .ok ([], .wanting flag) else .ok ([flag], .done)
  | letter :: behind =>
    if flag.takesValue then
      .ok ([], .value flag (.ofText (String.ofList (letter :: behind))))
    else
      match Flag.ofLetter? letter with
      | none => .error .usage
      | some next =>
        (readLetters next behind).map fun (flags, ending) => (flag :: flags, ending)

/-- An option and the value that it has behind an equals sign. -/
def readEquals (flag : Flag) (value : String) : Except Unread (List Flag × Ending) :=
  if flag.takesValue then .ok ([], .value flag (.ofText value)) else .error .usage

/-- The options without a value in an argument, and how it ends. -/
def readFlags : Argument → Except Unread (List Flag × Ending)
  | .long flag none | .short flag none => readLetters flag []
  | .long flag (some value) => readEquals flag value
  | .short flag (some []) => readEquals flag ""
  | .short flag (some behind) => readLetters flag behind
  | .unknown | .word => .ok ([], .stray)
  | .ambiguous => .error .usage

/-- Adds words that stand together; the first `--` among them only ends the
    options. -/
def Options.addWords (o : Options) (words : List String) : Options :=
  match o.words with
  | some _ => { o with misplaced := true }
  | none => { o with words := some (words.erase "--") }

/-- The words at the head of the arguments, and the arguments behind them.
    Behind `--` there are only words. -/
def spanWords : List String → List String × List String
  | [] => ([], [])
  | "--" :: args => ("--" :: args, [])
  | arg :: args =>
    if classify arg.toList = .word then
      let (words, rest) := spanWords args
      (arg :: words, rest)
    else ([], arg :: args)

/-- An argument that an option can take as its value. -/
def isValue (arg : String) : Bool :=
  arg != "--" && classify arg.toList = .word

/-- Reads an argument with options. A value that is wanted has to be there
    before any of them is set. -/
def readOption (o : Options) (arg : String) (args : List String) :
    Except Unread (Options × List String) := do
  let (flags, ending) ← readFlags (classify arg.toList)
  match ending, args with
  | .done, args => return (← flags.foldlM Options.raise o, args)
  | .value flag value, args => return (← (← flags.foldlM Options.raise o).set flag value, args)
  | .stray, args => return ({ ← flags.foldlM Options.raise o with misplaced := true }, args)
  | .wanting flag, value :: args =>
    if isValue value then
      return (← (← flags.foldlM Options.raise o).set flag (.text value), args)
    else throw .usage
  | .wanting _, [] => throw .usage

/-- Reads arguments in at most the given number of steps, one for each run of
    words and each option. -/
def readArgs : (steps : Nat) → Options → List String → Except Unread Options
  | 0, o, _ => .ok o
  | _, o, [] => .ok o
  | steps + 1, o, arg :: args =>
    match spanWords (arg :: args) with
    | ([], _) => do
      let (o, args) ← readOption o arg args
      readArgs steps o args
    | (words, rest) => readArgs steps (o.addWords words) rest

/-- Some argument could be more than one option. -/
def isAmbiguous (args : List String) : Bool :=
  (args.takeWhile (· != "--")).any fun arg => classify arg.toList = .ambiguous

/-- What the arguments say, if none of them is ambiguous, they can be read and
    all have their place. -/
def read (args : List String) : Except Unread Options := do
  if isAmbiguous args then throw .usage
  let o ← readArgs args.length Options.initial args
  if o.misplaced then .error .usage else .ok o

/-! ## Running -/

/-- The expression in a text: stripped, and without a prompt it was copied
    with. -/
def expression (text : String) : List Char :=
  let text := Text.strip text.toList
  if Text.startsWith ">>>" text then Text.strip (text.drop 3) else text

/-- What becomes of a call of the program. -/
inductive Call
  /-- The program prints and exits with a code. -/
  | exit (code : Nat) (output : String)
  /-- The arguments do not say what to do. -/
  | unread (why : Unread)
  /-- An expression is to be evaluated, and there is none. -/
  | noExpression
  | fault (f : Fault)
  /-- An interactive session ends. -/
  | interactive (r : Repl)

/-- The settings with the angles of the options. -/
def Options.settings (o : Options) (settings : Settings) : Settings :=
  match o.angle with
  | some unit => { settings with angle := unit }
  | none => settings

/-- The text of the words. -/
def Options.wordText (o : Options) : String :=
  " ".intercalate (o.words.getD [])

/-- An interactive session is asked for. -/
def Options.isInteractive (o : Options) : Bool :=
  !o.version && o.eval.isNone && (CommandLine.expression o.wordText).isEmpty

/-- Evaluates an expression. -/
def Options.evaluate [DigitLimit] (settings : Settings) (o : Options) (text : List Char) : Call :=
  let session := Session.new Store.initial none
  match (Report.evaluate settings (String.ofList text) session).1 with
  | .ok report => .exit (if report.isOk then 0 else 1) (report.written o.style)
  | .error f => .fault f

/-- Does what the options say; the lines are those of an interactive session. -/
def Options.run [DigitLimit] (settings : Settings) (o : Options) (lines : List Reply) : Call :=
  let settings := o.settings settings
  if o.version then .exit 0 (Repl.version ++ "\n")
  else
    match o.eval with
    | some .nothing => .noExpression
    | some (.text text) =>
      match expression text with
      | [] => .exit 1 "Error: Empty input. Please enter an expression.\n"
      | text => o.evaluate settings text
    | none =>
      match expression o.wordText with
      | [] => .interactive ((Repl.new o.style true lines).run settings)
      | text => o.evaluate settings text

/-- Calls the program. -/
def run [DigitLimit] (settings : Settings) (args : List String) (lines : List Reply) : Call :=
  match read args with
  | .ok o => o.run settings lines
  | .error why => .unread why

end Reckoner.CommandLine
