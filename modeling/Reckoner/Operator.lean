import Reckoner.Magnitude.Arithmetic
import Reckoner.Text.LongestMatch

/-!
# Operators

The words and signs of the language that are no numbers, units or names: what
they are spelled like, and what they do (`Action`). Several spellings can do
the same. Where a text begins with several of them, the longest counts.

All else about an operator follows from its action: how many values it takes
from the stack, whether they are brought up to date before, and whether it is
implemented. The brackets are not, as they only group; some openers and the
comma are *reserved* for what they will stand for.
-/

namespace Reckoner

/-- How an operator stands to its operands. -/
inductive Arity
  | binary
  | unary
  | convert
  | assign
  | groupOpen
  | groupClose
  | separator
deriving DecidableEq

/-- The name of an arity in listings. -/
def Arity.name : Arity → String
  | binary => "binary"
  | unary => "unary"
  | convert => "convert"
  | assign => "assign"
  | groupOpen => "group_open"
  | groupClose => "group_close"
  | separator => "separator"

/-- What an operator does. -/
inductive Action
  | arithmetic (op : Arithmetic)
  | elementary (f : Elementary)
  /-- The function of an angle. -/
  | circular (f : Circular)
  /-- The angle of a function value. -/
  | inverse (f : Circular)
  /-- Drops the value on top. -/
  | drop
  /-- Swaps the two values on top. -/
  | swap
  /-- Converts the value below into the unit of the one on top. -/
  | convert
  /-- Assigns to a name, perhaps after combining with its value. -/
  | assign (combine : Option Arithmetic)
  | opening (reserved : Bool)
  | closing
  | separator
deriving DecidableEq

namespace Action

/-- The arity of an action. -/
def arity : Action → Arity
  | arithmetic _ => .binary
  | elementary _ | circular _ | inverse _ | drop | swap => .unary
  | convert => .convert
  | assign _ => .assign
  | opening _ => .groupOpen
  | closing => .groupClose
  | separator => .separator

/-- How many values have to be on the stack. -/
def operands (a : Action) : Nat :=
  match a.arity with
  | .binary | .convert | .assign => 2
  | .unary | .separator => 1
  | .groupOpen | .groupClose => 0

/-- How many values on top of the stack are brought up to date before. -/
def confirmed : Action → Nat
  | arithmetic _ | convert => 2
  | elementary _ | circular _ | inverse _ | separator => 1
  | _ => 0

/-- The action can be carried out. -/
def isImplemented (a : Action) : Bool :=
  match a.arity with
  | .groupOpen | .groupClose | .separator => false
  | _ => true

/-- The action is kept for later. -/
def isReserved : Action → Bool
  | opening reserved => reserved
  | separator => true
  | _ => false

/-- The action takes its operands as they should be, not as they are: all but
    those that only move them about. -/
def confirms : Action → Bool
  | drop | swap => false
  | _ => true

end Action

/-- An operator of the language. -/
structure Operator where
  spelling : String
  name : String
  action : Action
  description : String
deriving DecidableEq

namespace Operator

/-- The arity of an operator. -/
def arity (o : Operator) : Arity :=
  o.action.arity

/-- All operators. -/
def table : List Operator := [
  ⟨"+", "add", .arithmetic .add, "addition"⟩,
  ⟨"-", "sub", .arithmetic .sub, "subtraction"⟩,
  ⟨"*", "mul", .arithmetic .mul, "multiplication"⟩,
  ⟨"/", "div", .arithmetic .div, "division, exact integer quotients stay integer"⟩,
  ⟨"^", "pow", .arithmetic .pow, "x to the power y"⟩,
  ⟨"\\", "root", .arithmetic .root, "y-th root of x"⟩,
  ⟨"%", "mod", .arithmetic .mod, "remainder"⟩,
  ⟨"max", "max", .arithmetic .max, "larger of two"⟩,
  ⟨"min", "min", .arithmetic .min, "smaller of two"⟩,
  ⟨"::", "convert", .convert, "convert to unit"⟩,
  ⟨";", "clear", .drop, "drop the top of the stack"⟩,
  ⟨"swap", "swap", .swap, "swap the top two values"⟩,
  ⟨"sqrt", "sqrt", .elementary .sqrt, "square root"⟩,
  ⟨"sqr", "sqrt", .elementary .sqrt, "square root"⟩,
  ⟨"abs", "abs", .elementary .abs, "absolute value"⟩,
  ⟨"neg", "neg", .elementary .neg, "negate"⟩,
  ⟨"~", "complement", .elementary .complement, "negate, bitwise complement for hex"⟩,
  ⟨"inv", "inv", .elementary .inv, "1/x"⟩,
  ⟨"exp10", "exp10", .elementary .exp10, "10^x"⟩,
  ⟨"exp2", "exp2", .elementary .exp2, "2^x"⟩,
  ⟨"exp", "exp", .elementary .exp, "e^x"⟩,
  ⟨"e10x", "exp10", .elementary .exp10, "10^x"⟩,
  ⟨"e2x", "exp2", .elementary .exp2, "2^x"⟩,
  ⟨"log10", "log10", .elementary .log10, "base 10 logarithm"⟩,
  ⟨"log2", "log2", .elementary .log2, "base 2 logarithm"⟩,
  ⟨"logn", "ln", .elementary .ln, "natural logarithm"⟩,
  ⟨"log", "log10", .elementary .log10, "base 10 logarithm"⟩,
  ⟨"ln", "ln", .elementary .ln, "natural logarithm"⟩,
  ⟨"sin", "sin", .circular .sine, "sine"⟩,
  ⟨"cos", "cos", .circular .cosine, "cosine"⟩,
  ⟨"tan", "tan", .circular .tangent, "tangent"⟩,
  ⟨"asin", "asin", .inverse .sine, "arcsine"⟩,
  ⟨"acos", "acos", .inverse .cosine, "arccosine"⟩,
  ⟨"atan", "atan", .inverse .tangent, "arctangent"⟩,
  ⟨"sinh", "sinh", .elementary .sinh, "hyperbolic sine"⟩,
  ⟨"cosh", "cosh", .elementary .cosh, "hyperbolic cosine"⟩,
  ⟨"tanh", "tanh", .elementary .tanh, "hyperbolic tangent"⟩,
  ⟨"asinh", "asinh", .elementary .asinh, "inverse hyperbolic sine"⟩,
  ⟨"acosh", "acosh", .elementary .acosh, "inverse hyperbolic cosine"⟩,
  ⟨"atanh", "atanh", .elementary .atanh, "inverse hyperbolic tangent"⟩,
  ⟨"ceil", "ceil", .elementary .ceil, "round up"⟩,
  ⟨"floor", "floor", .elementary .floor, "round down"⟩,
  ⟨"frac", "frac", .elementary .frac, "fractional part"⟩,
  ⟨"=", "assign", .assign none, "store into variable"⟩,
  ⟨"+=", "assign_add", .assign (some .add), "add into variable"⟩,
  ⟨"*=", "assign_mul", .assign (some .mul), "multiply into variable"⟩,
  ⟨"(", "open_paren", .opening false, "group"⟩,
  ⟨")", "close_paren", .closing, "end group"⟩,
  ⟨"[", "open_key", .opening false, "group"⟩,
  ⟨"]", "close_key", .closing, "end group"⟩,
  ⟨",", "separator", .separator, "separator"⟩,
  ⟨"<[", "vector", .opening true, "vector literal"⟩,
  ⟨"<[[", "matrix", .opening true, "matrix literal"⟩,
  ⟨"|", "bound_abs", .opening true, "absolute value bars"⟩,
  ⟨"<@", "save_memory", .opening true, "named memory"⟩,
  ⟨">", "close_save", .closing, "end named memory"⟩
]

/-- The operator that the text begins with. -/
def begins? (text : List Char) : Option Operator :=
  Text.longestMatch spelling table text

/-- The first operator of the given name. -/
def ofName? (name : String) : Option Operator :=
  table.find? fun o => o.name == name

/-- Multiplication, which two operands in a row stand for. -/
def multiplication : Operator :=
  ⟨"*", "mul", .arithmetic .mul, "multiplication"⟩

end Operator

end Reckoner
