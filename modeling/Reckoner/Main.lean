import Reckoner.CommandLine

/-!
# The program

Reads its arguments and, for an interactive session, the lines of its input;
prints what comes of them and exits.
-/

open Reckoner

/-- The lines of the input. -/
def readLines : IO (List Reply) := do
  let text ← (← IO.getStdin).readToEnd
  let lines := text.splitOn "\n"
  return (if lines.getLast? = some "" then lines.dropLast else lines).map Reply.line

/-- The program. -/
def main (args : List String) : IO UInt32 := do
  let lines ←
    match CommandLine.read args with
    | .ok o => if o.isInteractive then readLines else pure []
    | .error _ => pure []
  match CommandLine.run Settings.default args lines with
  | .exit code output =>
    IO.print output
    return code.toUInt32
  | .interactive r =>
    IO.print r.output
    return 0
  | .unread .help => return 0
  | .unread .usage => return 2
  | .noExpression | .fault _ => return 1
