import Reckoner.Command
import Reckoner.Notice

/-!
# The interactive session

Line after line is read, evaluated and answered, until the user leaves or there
are no more lines. The lines come from the user of the session's machine, as do
the answers to questions, so that a question takes the next line away.

Everything printed is collected (`Repl.output`): the prompts, the questions and
the answers. Every turn takes a line or ends the session (`run`).
-/

namespace Reckoner

/-- The state of an interactive session. -/
structure Repl where
  session : Session
  style : Style
  /-- The stack is listed after a line that leaves several values on it. -/
  showsStack : Bool
  debug : Bool
  /-- The user has been told how to leave. -/
  hinted : Bool
  running : Bool
  output : String

namespace Repl

/-- The version of the program. -/
def version : String := "0.4.0"

/-- The prompt. -/
def prompt : String := ">>> "

/-- The greeting. -/
def banner : String :=
  "unitcalc v" ++ version ++ " - type 'help' for commands, 'q' to exit.\n"

/-- The text of `help`. -/
def help : String :=
  "unitcalc v" ++ version ++ "

Type an expression as on the command line, e.g. 25C::F or y=3.2 2pi*y

COMMANDS
  help, ?     Show commands
  q, quit     Exit
  list        List variables and stack
  listVars    List stored variables
  showStack   List the stack
  clearStack  Clear the stack
  clearVars   Forget user variables
  functions   List all functions
  units       List all units
  tree        Show the parse tree of the last expression
  history     Show entered lines
  debug on|off  Toggle debug logging

SYNTAX
  12.5cm            number with unit
  3:%.2f            number with display format
  0x5A              hexadecimal integer
  25C::F            convert to unit
  y=3.2             store a variable
  2*y=y             store the result into y
  30 sin, sin(30)   functions follow their argument or take a group

"

/-- A new interactive session with the given lines to come. -/
def new (style : Style) (showsStack : Bool) (lines : List Reply) : Repl where
  session := Session.new Store.initial (some lines)
  style := style
  showsStack := showsStack
  debug := false
  hinted := false
  running := true
  output := banner

/-- Prints a text. -/
def print (text : String) (r : Repl) : Repl :=
  { r with output := r.output ++ text }

/-- Ends the session. -/
def stop (r : Repl) : Repl :=
  { r with running := false }

/-- Prints what interrupted a turn. -/
def printFault (f : Fault) (r : Repl) : Repl :=
  match f with
  | .interrupted => r.print "\n[Press Ctrl+C again or type 'q' to exit]\n"
  | f => r.print ("Error: " ++ f.text ++ "\n")

/-- Carries out a command given by a line, which goes into the history if all of
    the output could be shown. -/
def runCommand (settings : Settings) (line : String) (c : Command) (r : Repl) : Repl :=
  let (text, why) := Command.printed (c.output settings r.session)
  let session := c.effect r.session
  let r := { r.print text with
    session := session
    debug := match c with
      | .debug (some on) => on
      | _ => r.debug }
  match why with
  | some why => r.printFault (.unshowable why)
  | none => { r with session := { session with history := session.history ++ [line] } }

/-- The questions put during a line. -/
def questions (asked : List String) : String :=
  String.join (asked.map (· ++ "? "))

/-- Evaluates a line. -/
def runLine [DigitLimit] (settings : Settings) (line : String) (r : Repl) : Repl :=
  let before := { r.session with machine := { r.session.machine with asked := [] } }
  let (result, session) := Report.evaluate settings line before
  let r := { r with session := session }.print (questions session.machine.asked)
  match result with
  | .error f => r.printFault f
  | .ok report =>
    let r := r.print (report.written r.style)
    if r.showsStack && r.style == .human && 1 < session.machine.stack.length then
      match session.stackText settings with
      | .ok text => r.print (text ++ "\n")
      | .error why => r.printFault (.unshowable why)
    else r

/-- Takes a line from the user, stripped. -/
def process [DigitLimit] (settings : Settings) (line : List Char) (r : Repl) : Repl :=
  if line.isEmpty then
    if r.hinted then r
    else { r.print "Did you want to quit? - type 'q' to quit.\n" with hinted := true }
  else if line.head? = some '#' then r
  else
    let lowered := String.ofList (Text.lower line)
    if lowered == "q" || lowered == "quit" || lowered == "exit" then r.stop
    else if lowered == "help" || line.head? = some '?' then r.print help
    else
      match Command.ofLine? line with
      | some c => r.runCommand settings (String.ofList line) c
      | none => r.runLine settings (String.ofList line)

/-- Prompts for a line and takes it. -/
def turn [DigitLimit] (settings : Settings) (r : Repl) : Repl :=
  let r := r.print (if r.debug then "DEBUG" ++ prompt else prompt)
  let replies := r.session.machine.replies.getD []
  let r := { r with
    session := { r.session with
      machine := { r.session.machine with replies := some replies.tail } } }
  match replies with
  | .line text :: _ => r.process settings (Text.strip text.toList)
  | .interrupt :: _ => r.printFault .interrupted
  | .failure :: _ => r.printFault .unanswerable
  | .endOfInput :: _ | [] => r.stop

/-- Takes at most the given number of turns. -/
def turns [DigitLimit] (settings : Settings) : (count : Nat) → Repl → Repl
  | 0, r => r
  | count + 1, r => if r.running then turns settings count (r.turn settings) else r

/-- Runs the session to its end; there is a turn for each line and one more. -/
def run [DigitLimit] (settings : Settings) (r : Repl) : Repl :=
  turns settings ((r.session.machine.replies.getD []).length + 1) r

end Repl

end Reckoner
