import Reckoner.Proofs.Evaluation.Alike
import Reckoner.Proofs.Evaluation.Frame
import Reckoner.Proofs.Evaluation.Results
import Reckoner.Proofs.Reading.Converting
import Reckoner.Proofs.Session.Failure
import Reckoner.Proofs.Session.Lines

/-!
# Converting into a unit

The line that converts a quantity into a unit is put together from two texts, and
it is left to reading to take them apart again. Where that comes to a
conversion at the end of the line, the value of the line is in the unit
(`Session.conversion_delivers`).

It does not always do so. A display format that the quantity ends in takes the
double colon and the unit for a part of it, and the line succeeds without any
conversion. So it does where the conversion is nested: in a group that the
quantity leaves open, or below an operator that it ends with, which is then
applied to what has been converted.
-/

namespace Reckoner

open Text

namespace Session

end Session

section

variable [DigitLimit]

namespace Eval

variable {settings : Settings} {formula : Formula} {m : Machine} {target : Quantity}
  {below : List Quantity} {s : Measure.Spelling}

/-! ## Conversions -/

end Eval

namespace Node

end Node

namespace Session

variable {settings : Settings} {s : Session} {text : String} {report : Report}

/-! ## Lines that succeed -/

end Session

end

namespace Session

/-- In a group left open, what is converted is an operand of the product, and that has
    the unit of the other one. -/
example :
    let line := Report.conversionLine "2in*(3m" "ft"
    ((new .initial none).execute .default line).2.machine.stack.map Quantity.measure =
      [⟨.length, "in", "in"⟩] := by
  decide +kernel

/-- An inch in a format of its own is reported in inches, as the format takes the conversion
    for a part of it. -/
theorem formatted_inch_stays :
    (Report.evaluate .default (Report.conversionLine "1in:%.2f" "cm")
      (.new .initial none)).1.toOption =
        some {
          stack := ["1.00::cmin"]
          warnings := []
          outcome := .value
            { magnitude := .whole 1
              measure := ⟨.length, "in", "in"⟩
              format := "%.2f::cm"
              literal := "1" }
            "1.00::cmin" } := by
  decide +kernel

end Session

end Reckoner
