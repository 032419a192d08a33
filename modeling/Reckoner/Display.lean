import Reckoner.Format.Show

/-!
# Displaying magnitudes

How a number is shown: in the format that goes with it, and in a default format
where it has none or where its own does not take such a number. A real number
in the default format loses the zeros it ends with (`tidy`).

A whole number can always be shown, in the last resort in plain digits. A real
number cannot where the default format refuses it.
-/

namespace Reckoner.Display

open Format

/-- A numeral without the zeros at the end of its places, and without a point
    that nothing follows any more. An exponent stays as it is; minus zero loses
    its sign. -/
def tidy (text : List Char) : List Char :=
  if !text.contains '.' then text
  else
    let (mantissa, rest) := text.span (· != 'e')
    let cut := ((mantissa.reverse.dropWhile (· == '0')).dropWhile (· == '.')).reverse
    (if cut.isEmpty || cut == ['-', '0'] then ['0'] else cut) ++ rest

/-- A real number in `format`, if that is one and takes it, and tidied in
    `default` otherwise. -/
def real (format default : String) (x : Float) : Except Refusal String :=
  match specialText? x with
  | some text => .ok text
  | none =>
    let tidied := (show? default (.real x)).map fun text => String.ofList (tidy text.toList)
    if format == "" then tidied
    else
      match show? format (.real x) with
      | .ok text => .ok text
      | .error _ => tidied

/-- Formats that show a negative number as the register holds it. -/
def showsRegister (format : String) : Bool :=
  match format.toList.getLast? with
  | some c => c == 'x' || c == 'X' || c == 'o'
  | none => false

/-- The number a format is given for a whole number. -/
def registered (format : String) (n : Int) : Int :=
  if n < 0 && showsRegister format then n % Int.pow 2 64 else n

/-- A whole number in `format`, or in plain digits where that refuses it. -/
def whole (format : String) (n : Int) : String :=
  let shown := registered format n
  match show? format (.whole shown) with
  | .ok text => text
  | .error _ => toString shown

end Reckoner.Display
