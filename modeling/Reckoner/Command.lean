import Reckoner.Measure.Spelling
import Reckoner.Session
import Reckoner.Text.Lowercase
import Reckoner.Text.Space

/-!
# Commands

Lines that are no expressions: they list what the session holds or the language
offers, clear it, or switch. A command is recognised in any case, as a whole
line; only `debug` takes an argument. With arguments behind them, the other
words are expressions like any other.
-/

namespace Reckoner

/-- A command of the interactive session. -/
inductive Command
  | list
  | listVariables
  | stack
  | clearStack
  | clearVariables
  | functions
  | units
  | tree
  | history
  /-- Switches debugging, if it is said which way. -/
  | debug (on : Option Bool)
deriving DecidableEq

namespace Command

/-- The commands without arguments, by their words in lower case. -/
def words : List (String × Command) := [
  ("list", list),
  ("listvars", listVariables),
  ("liststack", stack),
  ("showstack", stack),
  ("clearstack", clearStack),
  ("clearvars", clearVariables),
  ("functions", functions),
  ("units", units),
  ("tree", tree),
  ("history", history)
]

/-- The way a word switches, in lower case. -/
def switch? (word : String) : Option Bool :=
  if word == "on" || word == "true" then some true
  else if word == "off" || word == "false" then some false
  else none

/-- The command that a stripped line is. -/
def ofLine? (line : List Char) : Option Command :=
  let lowered := Text.strip (Text.lower line)
  if String.ofList (Text.firstWords lowered).1 == "debug" then
    some (.debug (switch? (String.ofList (Text.lower (Text.firstWords line).2))))
  else (words.find? fun w => w.1 == String.ofList lowered).map Prod.snd

/-! ## Listings -/

/-- The text in at least the given width, in front of blanks. -/
def padded (width : Nat) (text : String) : String :=
  text ++ String.ofList (List.replicate (width - text.length) ' ')

/-- The operators of the language. -/
def operatorLines : List String :=
  Operator.table.map fun o =>
    "  " ++ padded 8 o.spelling ++ " " ++ padded 12 o.arity.name ++ " " ++ o.description ++
      (if o.action.isReserved then "  (reserved)" else "")

/-- The lines of units, with a heading wherever the dimension changes from the
    given one. -/
def unitLines : Option Dimension → List Measure.Spelling → List String
  | _, [] => []
  | dimension, s :: rest =>
    (if dimension = some s.measure.dimension then [] else [s.measure.dimension.name ++ ":"]) ++
      ("  " ++ padded 6 s.measure.display ++ " " ++ s.description) ::
      unitLines (some s.measure.dimension) rest

/-- The lines of a history, counted. -/
def historyLines (history : List String) : List String :=
  history.mapIdx fun i line => Session.alignedNumber 4 (i + 1) ++ "  " ++ line

/-- A text with the ends of its lines. -/
def ended (lines : List String) : String :=
  String.join (lines.map (· ++ "\n"))

/-- What a command prints, in parts; printing ends with the first part that
    cannot be shown. -/
def output (settings : Settings) (s : Session) : Command → List (Except Format.Refusal String)
  | list => variableParts ++ stackParts
  | listVariables => variableParts
  | stack => stackParts
  | clearStack => [.ok "Clearing stack\n"]
  | clearVariables => [.ok "Variables cleared from current session.\n"]
  | functions => [.ok (ended ("Functions" :: operatorLines))]
  | units => [.ok (ended (unitLines none Measure.Spelling.listing))]
  | tree => [(s.treeText settings).map fun text =>
      (if text == "" then "(no expression parsed yet)" else text) ++ "\n"]
  | history => [.ok (ended (historyLines s.history))]
  | debug (some true) => [.ok "Debug mode enabled.\n"]
  | debug (some false) => [.ok "Debug mode disabled.\n"]
  | debug none => [.ok "Usage: debug <on|off>\n"]
where
  variableParts : List (Except Format.Refusal String) :=
    [.ok "Listing variables:\n", (s.storeText settings true).map (· ++ "\n")]
  stackParts : List (Except Format.Refusal String) :=
    [.ok "Listing stack:\n", (s.stackText settings).map (· ++ "\n")]

/-- The session after a command. -/
def effect (s : Session) : Command → Session
  | clearStack => s.clearStack
  | clearVariables => s.clearVariables
  | _ => s

/-- The parts up to the first that cannot be shown, and why it cannot. -/
def printed : List (Except Format.Refusal String) → String × Option Format.Refusal
  | [] => ("", none)
  | .ok text :: parts =>
    let (texts, why) := printed parts
    (text ++ texts, why)
  | .error why :: _ => ("", some why)

end Command

end Reckoner
