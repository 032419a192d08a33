import Reckoner.Main
import Reckoner.Proofs.Ends
import Reckoner.Proofs.Abreast
import Reckoner.Proofs.Store
import Reckoner.Proofs.Inherited
import Reckoner.Proofs.Text.LongestMatch
import Reckoner.Proofs.Reading.Scanning
import Reckoner.Proofs.Reading.Steady
import Reckoner.Proofs.Reading.Progress
import Reckoner.Proofs.Reading.Whole
import Reckoner.Proofs.Reading.Operands
import Reckoner.Proofs.Reading.Passing
import Reckoner.Proofs.Reading.Names
import Reckoner.Proofs.Reading.Apart
import Reckoner.Proofs.Reading.ShownAgain
import Reckoner.Proofs.Reading.Induction
import Reckoner.Proofs.Reading.Visits
import Reckoner.Proofs.Reading.Converting
import Reckoner.Proofs.Reading.Seeding
import Reckoner.Proofs.Reading.Places
import Reckoner.Proofs.Reading.Values
import Reckoner.Proofs.Reading.Tokens
import Reckoner.Proofs.Reading.Unclosed
import Reckoner.Proofs.Reading.Shapes
import Reckoner.Proofs.Evaluation.Blind
import Reckoner.Proofs.Evaluation.Beside
import Reckoner.Proofs.Evaluation.Endings
import Reckoner.Proofs.Evaluation.Showing
import Reckoner.Proofs.Evaluation.Judgement
import Reckoner.Proofs.Evaluation.Keeping
import Reckoner.Proofs.Evaluation.Restore
import Reckoner.Proofs.Evaluation.Interrupted
import Reckoner.Proofs.Evaluation.Success
import Reckoner.Proofs.Evaluation.Frame
import Reckoner.Proofs.Evaluation.Results
import Reckoner.Proofs.Evaluation.Compound
import Reckoner.Proofs.Evaluation.Reports
import Reckoner.Proofs.Evaluation.Asking
import Reckoner.Proofs.Evaluation.Alike
import Reckoner.Proofs.Evaluation.Reserved
import Reckoner.Proofs.Evaluation.Trace
import Reckoner.Proofs.Evaluation.Settling
import Reckoner.Proofs.Reading.Flattening
import Reckoner.Proofs.Evaluation.Height
import Reckoner.Proofs.Session.Moves
import Reckoner.Proofs.Session.Reachable
import Reckoner.Proofs.Session.Failure
import Reckoner.Proofs.Session.Variables
import Reckoner.Proofs.Session.Values
import Reckoner.Proofs.Session.Lines
import Reckoner.Proofs.Session.Captured
import Reckoner.Proofs.Session.Assigning
import Reckoner.Proofs.Session.Converting
import Reckoner.Proofs.Session.Inline
import Reckoner.Proofs.Session.Changes
import Reckoner.Proofs.Session.Settling
import Reckoner.Proofs.Session.Listings
import Reckoner.Proofs.Session.Interactive
import Reckoner.Proofs.Phrase.Basic
import Reckoner.Proofs.Phrase.Words
import Reckoner.Proofs.Text.Cursor
import Reckoner.Proofs.Phrase.Reading
import Reckoner.Proofs.Phrase.Spacing
import Reckoner.Proofs.Phrase.Running
import Reckoner.Proofs.Phrase.Series
import Reckoner.Proofs.Session.StackOperators
import Reckoner.Proofs.Phrase.Meaning
import Reckoner.Proofs.Phrase.WholeNumbers
import Reckoner.Proofs.Conversion.Chain
import Reckoner.Proofs.Conversion.Exact
import Reckoner.Proofs.Conversion.Answer
import Reckoner.Proofs.Conversion.Coherence
import Reckoner.Proofs.Conversion.Nesting
import Reckoner.Proofs.Magnitude.Nonzero
import Reckoner.Proofs.Guarded.Arithmetic
import Reckoner.Proofs.Guarded.Operators
import Reckoner.Proofs.Guarded.Literal
import Reckoner.Proofs.Guarded.Session
import Reckoner.Proofs.Evaluation.Division
import Reckoner.Proofs.Reading.Hexadecimal
import Reckoner.Proofs.Reading.Grammar
import Reckoner.Proofs.Reading.UnitWords
import Reckoner.Proofs.Magnitude.Exact
import Reckoner.Proofs.Display.Printed
import Reckoner.Proofs.Display.Tidy
import Reckoner.Proofs.Display.WholeReals
import Reckoner.Proofs.Display.Register
