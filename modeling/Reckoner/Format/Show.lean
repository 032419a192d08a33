import Reckoner.Decimal.Shortest
import Reckoner.Format.Directive

/-!
# Showing a number

What a display format makes of one number (`show?`): the plain characters as
they are, and the field of each directive in its place, the pieces from left to
right. The first piece that cannot be shown decides why the whole cannot.

A field is a sign, a mark of the base and a body; it is padded to the width of
the directive, with zeros between mark and body or with blanks on either side.
-/

namespace Reckoner.Format

/-- The one argument of a format. -/
inductive Argument
  | whole (n : Int)
  | real (x : Float)
deriving DecidableEq

/-! ## Fields -/

/-- What a directive shows, before padding. -/
structure Field where
  sign : List Char
  mark : List Char
  body : List Char
  /-- The field can be padded with zeros. -/
  numeric : Bool

/-- A field without sign or mark. -/
def Field.ofText (text : List Char) : Field :=
  ⟨[], [], text, false⟩

/-- The field in the width of the directive, or in its own where it is wider. -/
def Field.padded (f : Field) (d : Directive) : List Char :=
  let width := match d.width with
    | .count n => n
    | _ => 0
  let missing := width - (f.sign ++ f.mark ++ f.body).length
  if d.left then f.sign ++ f.mark ++ f.body ++ List.replicate missing ' '
  else if d.zero && f.numeric then f.sign ++ f.mark ++ List.replicate missing '0' ++ f.body
  else List.replicate missing ' ' ++ f.sign ++ f.mark ++ f.body

/-- The precision of a directive, if it has one. -/
def Directive.places? (d : Directive) : Option Nat :=
  match d.precision with
  | .count n => some n
  | _ => none

/-- The sign of a number in front of its size. -/
def Directive.signOf (d : Directive) (negative : Bool) : List Char :=
  if negative then ['-'] else if d.plus then ['+'] else if d.blank then [' '] else []

/-! ## Conversions -/

/-- An argument cut off to a whole number. -/
def Argument.truncate : Argument → Int
  | whole n => n
  | real x => (Binary.ofFloat x).truncate

/-- An argument as a double. -/
def Argument.toReal : Argument → Float
  | whole n => Float.ofInt n
  | real x => x

/-- An argument in plain text. -/
def Argument.plain : Argument → List Char
  | whole n => (toString n).toList
  | real x => (plainText x).toList

/-- The greatest precision of a whole number. -/
def wholePrecisionLimit : Nat := Nat.pow 2 31 - 4

/-- A whole number in the given base, with at least as many digits as the
    precision says. -/
def wholeField (d : Directive) (base : Nat) (mark : List Char) (n : Int) : Except Refusal Field :=
  let digits := Nat.toDigits base n.natAbs
  match d.places? with
  | none => .ok ⟨d.signOf (n < 0), mark, digits, true⟩
  | some places =>
    if wholePrecisionLimit < places then .error .tooPrecise
    else .ok ⟨d.signOf (n < 0), mark, List.replicate (places - digits.length) '0' ++ digits, true⟩

/-- A whole number in a base other than ten, marked where the directive says
    so. -/
def basedField (d : Directive) (base : Nat) (letter : Char) : Argument → Except Refusal Field
  | .whole n => wholeField d base (if d.alternate then ['0', letter] else []) n
  | .real _ => .error (.wantsWhole d.conversion)

/-- The letters of a field in upper case. -/
def Field.upper (f : Field) : Field :=
  { f with mark := f.mark.map Char.toUpper, body := f.body.map Char.toUpper }

/-- A finite double with a point. Six places or digits are the usual ones. -/
def realField (d : Directive) (write : (num den places : Nat) → List Char) (x : Float) : Field :=
  let b := Binary.ofFloat x
  ⟨d.signOf b.negative, [], write b.numerator b.denominator (d.places?.getD 6), true⟩

/-- The character with the given number. -/
def characterField : Argument → Except Refusal Field
  | .whole n =>
    if 0 ≤ n ∧ n < 0x110000 then .ok (.ofText [Text.charOfCode n.toNat])
    else .error .noSuchCharacter
  | .real _ => .error .wantsCharacter

/-- What a directive shows of the argument. -/
def Directive.field (d : Directive) (a : Argument) : Except Refusal Field :=
  let exponential := fun num den places =>
    (Decimal.leading num den (places + 1)).scientific d.alternate
  let fixed := fun num den places => Decimal.fixed d.alternate num den places
  let general := fun num den places => Decimal.general d.alternate num den (max places 1)
  match d.conversion with
  | 'd' | 'i' | 'u' => wholeField d 10 [] a.truncate
  | 'o' => basedField d 8 'o' a
  | 'x' => basedField d 16 'x' a
  | 'X' => (basedField d 16 'x' a).map Field.upper
  | 'e' => .ok (realField d exponential a.toReal)
  | 'E' => .ok (realField d exponential a.toReal).upper
  | 'f' | 'F' => .ok (realField d fixed a.toReal)
  | 'g' => .ok (realField d general a.toReal)
  | 'G' => .ok (realField d general a.toReal).upper
  | 's' | 'r' | 'a' =>
    .ok (.ofText (match d.places? with
      | some places => a.plain.take places
      | none => a.plain))
  | 'c' => characterField a
  | c => .error (.unknownConversion c d.position)

/-! ## Formats -/

/-- Takes the argument, unless it is gone. -/
def takeArgument (taken : Bool) : Except Refusal Bool :=
  if taken then .error .nothingLeft else .ok true

/-- Takes the argument for a `*`, which wants a whole number. -/
def takeSize (a : Argument) (taken : Bool) : Except Refusal Bool := do
  let taken ← takeArgument taken
  match a with
  | .whole _ => .ok taken
  | .real _ => .error .wantsWholeSize

/-- Takes the argument for each `*` of a width and a precision. The width can be
    any number in the register, the precision one that fits half of it. -/
def takeSizes (d : Directive) (a : Argument) (taken : Bool) : Except Refusal Bool := do
  let taken ← if d.width = .argument then takeSize a taken else .ok taken
  if d.precision = .argument then
    let taken ← takeSize a taken
    if -Int.pow 2 31 ≤ a.truncate ∧ a.truncate < Int.pow 2 31 then .ok taken else .error .tooPrecise
  else .ok taken

/-- Shows a piece, and says whether the argument is taken now. -/
def Piece.show? (a : Argument) (taken : Bool) : Piece → Except Refusal (List Char × Bool)
  | char c => .ok ([c], taken)
  | broken 0 why => .error why
  | broken (_ + 1) why => do
    let _ ← takeSize a taken
    .error why
  | directive d => do
    let taken ← takeSizes d a taken
    let taken ← takeArgument taken
    let field ← d.field a
    .ok (field.padded d, taken)

/-- Shows the pieces in their order. -/
def showPieces (a : Argument) : (taken : Bool) → List Piece → Except Refusal (List Char × Bool)
  | taken, [] => .ok ([], taken)
  | taken, p :: ps => do
    let (text, taken) ← p.show? a taken
    let (texts, taken) ← showPieces a taken ps
    .ok (text ++ texts, taken)

/-- The argument in the given format. -/
def show? (format : String) (a : Argument) : Except Refusal String := do
  let (text, taken) ← showPieces a false (pieces format.toList)
  if taken then .ok (String.ofList text) else .error .nothingShown

/-! ## Formats of one directive -/

/-- A directive that says its sizes itself takes the argument for its field alone. -/
theorem Piece.show?_directive {d : Directive} (a : Argument) (hwidth : d.width ≠ .argument)
    (hprecision : d.precision ≠ .argument) :
    (Piece.directive d).show? a false = (d.field a).map fun field => (field.padded d, true) := by
  have hsizes : takeSizes d a false = .ok false := by
    simp only [takeSizes, if_neg hwidth, if_neg hprecision]
    rfl
  rw [show?, hsizes]
  rfl

/-- Plain characters are shown as they are. -/
theorem showPieces_chars (a : Argument) (taken : Bool) (chars : List Char) (ps : List Piece) :
    showPieces a taken (chars.map .char ++ ps) =
      (showPieces a taken ps).map fun shown => (chars ++ shown.1, shown.2) := by
  induction chars with
  | nil => exact (id_map (showPieces a taken ps)).symm
  | cons c chars ih =>
    change (showPieces a taken (chars.map .char ++ ps) >>= fun shown => _) = _
    rw [ih]
    cases showPieces a taken ps <;> rfl

/-- The field of a directive is shown in front of the plain characters behind it. -/
theorem showPieces_directive {d : Directive} (a : Argument) (after : List Char)
    (hwidth : d.width ≠ .argument) (hprecision : d.precision ≠ .argument) :
    showPieces a false (.directive d :: after.map .char) =
      (d.field a).map fun field => (field.padded d ++ after, true) := by
  have hafter : showPieces a true (after.map .char) = .ok (after, true) := by
    have hshown := showPieces_chars a true after []
    rw [List.append_nil] at hshown
    rw [hshown]
    exact congrArg (fun text => Except.ok (text, true)) (List.append_nil after)
  rw [showPieces, Piece.show?_directive a hwidth hprecision]
  cases d.field a with
  | error why => rfl
  | ok field =>
    change (showPieces a true (after.map .char) >>= _) = _
    rw [hafter]
    rfl

/-- A format of one directive shows the field of that between its plain characters. -/
theorem show?_between {format : String} {before after : List Char} {d : Directive} (a : Argument)
    (hpieces : pieces format.toList = before.map .char ++ .directive d :: after.map .char)
    (hwidth : d.width ≠ .argument) (hprecision : d.precision ≠ .argument) :
    show? format a =
      (d.field a).map fun field => String.ofList (before ++ (field.padded d ++ after)) := by
  rw [show?, hpieces, showPieces_chars, showPieces_directive a after hwidth hprecision]
  cases d.field a <;> rfl

/-- A format that ends in its one directive shows the field of that behind its plain
    characters. -/
theorem show?_of_pieces {format : String} {chars : List Char} {d : Directive} (a : Argument)
    (hpieces : pieces format.toList = chars.map .char ++ [.directive d])
    (hwidth : d.width ≠ .argument) (hprecision : d.precision ≠ .argument) :
    show? format a = (d.field a).map fun field => String.ofList (chars ++ field.padded d) := by
  have hbetween : pieces format.toList = chars.map .char ++ .directive d :: [].map .char := hpieces
  simp only [show?_between a hbetween hwidth hprecision, List.append_nil]

/-- Without a width, nothing is padded. -/
theorem Field.padded_of_absent (f : Field) {d : Directive} (h : d.width = .absent) :
    f.padded d = f.sign ++ f.mark ++ f.body := by
  simp [padded, h]

end Reckoner.Format
