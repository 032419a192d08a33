import Reckoner.Magnitude.Basic

/-!
# Arithmetic

The operations on two magnitudes and the functions of one. Two whole numbers
are computed with in the register as long as the result is a whole number; with
a real operand, or without a whole result, the doubles nearest to the operands
are.

The only computation without a result is one that divides by zero: division,
remainder, root and reciprocal. All others give a number, or the double that
is no number.
-/

namespace Reckoner

/-! ## Two magnitudes -/

/-- An operation on two magnitudes. -/
inductive Arithmetic
  | add
  | sub
  | mul
  | div
  | pow
  | root
  | mod
  | max
  | min
deriving DecidableEq

namespace Arithmetic

/-- Divides by its second operand, so that zero is not allowed there. -/
def divides : Arithmetic → Bool
  | div | root | mod => true
  | _ => false

/-- The quotient of whole numbers, if it is whole itself: at the lower end of
    the register that of `-1` wraps. -/
def quotient (a b : Int64) : Magnitude :=
  if a.toInt % b.toInt = 0 then .ofInt (a.toInt / b.toInt)
  else .real (Float.ofInt a.toInt / Float.ofInt b.toInt)

/-- The operation on whole numbers, the second not zero where it divides. -/
def onWhole (a b : Int64) : Arithmetic → Magnitude
  | add => .whole (a + b)
  | sub => .whole (a - b)
  | mul => .whole (a * b)
  | div => quotient a b
  | pow =>
    if b.toInt < 0 then .real (Float.pow (Float.ofInt a.toInt) (Float.ofInt b.toInt))
    else .whole (power a b.toInt.toNat)
  | root => .real (Float.pow (Float.ofInt a.toInt) (1.0 / Float.ofInt b.toInt))
  | mod => .ofInt (a.toInt.tmod b.toInt)
  | max => .whole (if b < a then a else b)
  | min => .whole (if a < b then a else b)

/-- The operation on doubles, the second not zero where it divides. -/
def onReal (x y : Float) : Arithmetic → Float
  | add => x + y
  | sub => x - y
  | mul => x * y
  | div => x / y
  | pow => Float.pow x y
  | root => Float.pow x (1.0 / y)
  | mod => realRemainder x y
  | max => realMax x y
  | min => realMin x y

/-- The result of the operation; there is none on dividing by zero. -/
def apply (op : Arithmetic) (a b : Magnitude) : Option Magnitude :=
  if op.divides && b.isZero then none
  else
    match a, b with
    | .whole m, .whole n => some (onWhole m n op)
    | a, b => some (.real (onReal a.toReal b.toReal op))

/-- A division by zero is all that can fail. -/
theorem apply_eq_none_iff (op : Arithmetic) (a b : Magnitude) :
    op.apply a b = none ↔ op.divides = true ∧ b.isZero = true := by
  unfold apply
  split
  · rename_i h
    simpa using h
  · rename_i h
    cases a <;> cases b <;> simpa using h

end Arithmetic

/-! ## One magnitude -/

/-- An elementary function of a magnitude. -/
inductive Elementary
  | sqrt
  | abs
  | neg
  | complement
  | inv
  | exp10
  | exp2
  | exp
  | log10
  | log2
  | ln
  | sinh
  | cosh
  | tanh
  | asinh
  | acosh
  | atanh
  | ceil
  | floor
  | frac
deriving DecidableEq

namespace Elementary

/-- The function on doubles. -/
def onReal (x : Float) : Elementary → Float
  | sqrt => x.sqrt
  | abs => x.abs
  | neg | complement => -x
  | inv => 1.0 / x
  | exp10 => Float.pow 10.0 x
  | exp2 => x.exp2
  | exp => x.exp
  | log10 => x.log10
  | log2 => x.log2
  | ln => x.log
  | sinh => x.sinh
  | cosh => x.cosh
  | tanh => x.tanh
  | asinh => x.asinh
  | acosh => x.acosh
  | atanh => x.atanh
  | ceil => x.ceil
  | floor => x.floor
  | frac => realFraction x

/-- The function on whole numbers. Those that need not leave the register do
    not; `complement` flips the bits where the number is `bits`, that is shown
    in hexadecimal, and changes the sign otherwise. -/
def onWhole (n : Int64) (bits : Bool) : Elementary → Magnitude
  | abs => .ofInt n.toInt.natAbs
  | neg => .whole (-n)
  | complement => .whole (if bits then ~~~n else -n)
  | exp2 => if n.toInt < 0 then .real (Float.ofInt n.toInt).exp2 else .whole (power 2 n.toInt.toNat)
  | ceil | floor => .whole n
  | frac => .whole 0
  | f => .real (onReal (Float.ofInt n.toInt) f)

/-- The value of the function; zero has no reciprocal. -/
def apply (f : Elementary) (bits : Bool) (a : Magnitude) : Option Magnitude :=
  if f = inv ∧ a.isZero then none
  else
    match a with
    | .whole n => some (onWhole n bits f)
    | .real x => some (.real (onReal x f))

/-- The reciprocal of zero is all that can fail. -/
theorem apply_eq_none_iff (f : Elementary) (bits : Bool) (a : Magnitude) :
    f.apply bits a = none ↔ f = inv ∧ a.isZero = true := by
  unfold apply
  split
  · rename_i h
    simpa using h
  · rename_i h
    cases a <;> simpa using h

end Elementary

/-! ## Angles -/

/-- A function of an angle, and its inverse. -/
inductive Circular
  | sine
  | cosine
  | tangent
deriving DecidableEq

namespace Circular

/-- The function of an angle in radians. -/
def value (x : Float) : Circular → Float
  | sine => x.sin
  | cosine => x.cos
  | tangent => x.tan

/-- The angle in radians that has the given value. -/
def angle (x : Float) : Circular → Float
  | sine => x.asin
  | cosine => x.acos
  | tangent => x.atan

end Circular

end Reckoner
