import Reckoner.Evaluation.Machine

/-!
# Converting quantities

A quantity is converted by the formula of a rule, which computes with its bare
magnitude as a real number. How formulas are evaluated is left open here
(`Formula`): they are lines of the language, so that their evaluation may well
come back to conversions.

A result always is a real number, also where the unit stays the same.
-/

namespace Reckoner

/-- How a formula is evaluated that continues the given quantity. -/
abbrev Formula := Quantity → String → Eval Quantity

namespace Quantity

/-- A real quantity with the magnitude of `q`. -/
def realIn (measure : Measure) (format : String) (q : Quantity) : Quantity where
  magnitude := .real q.magnitude.toReal
  measure := measure
  format := format

/-- The magnitude of `q` taken from one unit into another by the rule there is,
    whatever the unit of `q`. -/
def byRule (settings : Settings) (formula : Formula) (q : Quantity) (source target : Measure) :
    Eval Quantity := do
  match Measure.rule? settings.rules source target with
  | some r => formula (q.realIn .plain "") r.formula
  | none =>
    Eval.refuse (.noConversion (← Eval.shown settings q)
      (if target.display == "" then target.key else target.display))

/-- `q` in the unit of `target`, and in its format if it has one. -/
def convertTo (settings : Settings) (formula : Formula) (q target : Quantity) : Eval Quantity := do
  let format := firstFormat target.format q.format
  if target.measure.isPlain then Eval.refuse .targetWithoutUnit
  else if q.measure.sameAs target.measure then return q.realIn target.measure format
  else
    return (← q.byRule settings formula q.measure target.measure).realIn target.measure format

/-- An angle in radians. A quantity in anything else than radians counts as
    being in the angle unit of the settings. -/
def toRadians (settings : Settings) (formula : Formula) (q : Quantity) : Eval Quantity := do
  if q.measure.isRadians || settings.angle = .rad then return q.realIn .radians ""
  else return (← q.byRule settings formula .degrees .radians).realIn .radians ""

/-- An angle in radians taken into the angle unit of the settings. -/
def fromRadians (settings : Settings) (formula : Formula) (q : Quantity) : Eval Quantity := do
  if settings.angle = .rad then return q.realIn .radians q.format
  else return (← q.byRule settings formula .radians .degrees).realIn .degrees q.format

end Quantity

end Reckoner
