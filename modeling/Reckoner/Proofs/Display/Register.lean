import Reckoner.Proofs.Reading.Apart
import Reckoner.Proofs.Reading.Hexadecimal

/-!
# Whole numbers in a format

A format for whole numbers is a directive between plain texts (`WholeFormat`): flags, a
width, a precision and the letter of a conversion. The letters `d`, `i` and `u` write signed
decimal digits; `x`, `X` and `o` are meant for what the register holds, which has no sign.

Every such format shows every number of the register (`show?_text`). But whether it is given
the number or the register does not go by the letter of the conversion: it goes by the last
letter of the whole format (`showsRegister_text`). The two differ for `%Xh` and for `%dx`, and
a negative number shows it (`WholeFormat.whole_eq_promised_iff`).
-/

namespace Reckoner

open Text Format

/-- The conversions of whole numbers. -/
def Format.wholeConversions : List Char :=
  ['d', 'i', 'u', 'x', 'X', 'o']

/-- The conversions that are for what the register holds. -/
def Format.isRegisterConversion (c : Char) : Bool :=
  c == 'x' || c == 'X' || c == 'o'

/-- A format of one conversion of whole numbers between plain texts. -/
structure WholeFormat where
  before : List Char
  flags : List Char
  /-- The digits of the width; there is no width without digits. -/
  width : List Char
  /-- The digits behind the point, if there is a point. -/
  precision : Option (List Char)
  conversion : Char
  after : List Char
  percent_notMem_before : '%' ∉ before
  percent_notMem_after : '%' ∉ after
  isFlag_flags : ∀ c ∈ flags, isFlag c = true
  isDigit_width : ∀ c ∈ width, c.isDigit = true
  /-- A zero in front of a width is a flag. -/
  head_width : width.head? ≠ some '0'
  width_le : valueIn 10 width ≤ widthLimit
  isDigit_precision : ∀ digits ∈ precision, ∀ c ∈ digits, c.isDigit = true
  precision_le : ∀ digits ∈ precision, valueIn 10 digits ≤ wholePrecisionLimit
  conversion_mem : conversion ∈ wholeConversions

namespace WholeFormat

variable (f : WholeFormat)

/-- The precision as it is written. -/
def precisionText : List Char :=
  match f.precision with
  | some digits => '.' :: digits
  | none => []

/-- What stands between the percent sign and the letter. -/
def sizes : List Char :=
  f.flags ++ (f.width ++ f.precisionText)

def text : List Char :=
  f.before ++ '%' :: (f.sizes ++ f.conversion :: f.after)

/-- The last letter of the format. -/
def last : Char :=
  f.after.getLast?.getD f.conversion

/-- The directive that the format has. -/
def directive : Directive where
  left := f.flags.contains '-'
  plus := f.flags.contains '+'
  blank := f.flags.contains ' '
  alternate := f.flags.contains '#'
  zero := f.flags.contains '0'
  width := if f.width.isEmpty then .absent else .count (valueIn 10 f.width)
  precision := match f.precision with
    | some digits => .count (valueIn 10 digits)
    | none => .absent
  conversion := f.conversion
  position := f.text.length - f.after.length - 1

/-! ## What is promised -/

/-- The base of the digits. -/
def base : Nat :=
  if f.conversion = 'o' then 8 else if f.conversion = 'x' ∨ f.conversion = 'X' then 16 else 10

/-- Digits behind the zeros that the precision wants. -/
def filled (digits : List Char) : List Char :=
  match f.precision with
  | some places => List.replicate (valueIn 10 places - digits.length) '0' ++ digits
  | none => digits

/-- The digits of a number. -/
def digits (n : Nat) : List Char :=
  f.filled (if f.conversion = 'X' then (Nat.toDigits f.base n).map Char.toUpper
    else Nat.toDigits f.base n)

/-- A number with its sign, the mark of the base and its digits. -/
def field (m : Int) : Field where
  sign := f.directive.signOf (m < 0)
  mark := if isRegisterConversion f.conversion && f.flags.contains '#' then ['0', f.conversion]
    else []
  body := f.digits m.natAbs
  numeric := true

/-- A number in its field, between the plain texts. -/
def shown (m : Int) : List Char :=
  f.before ++ ((f.field m).padded f.directive ++ f.after)

/-- What is promised for a number of the register: what the register holds, where the
    conversion is for that, and the number with its sign otherwise. -/
def promised (n : Int64) : List Char :=
  f.shown (if isRegisterConversion f.conversion then registerOf n else n.toInt)

end WholeFormat

/-! ## Reading -/

namespace Format

/-- A run of digits is read as a size, and nothing else is. -/
theorem readSize_append {limit : Nat} {digits rest : List Char}
    (hdigits : ∀ c ∈ digits, c.isDigit = true) (hle : valueIn 10 digits ≤ limit)
    (hrest : ∀ c ∈ rest.head?, c.isDigit = false ∧ c ≠ '*') :
    readSize limit (digits ++ rest) =
      (some (if digits.isEmpty then .absent else .count (valueIn 10 digits)), rest) := by
  obtain ⟨htake, hdrop⟩ := Numeral.span_digits hdigits fun c hc => (hrest c hc).1
  unfold readSize
  split
  · rename_i rest' htext
    exfalso
    -- Neither the digits nor what follows them begin with a star.
    cases digits with
    | nil => exact (hrest '*' (by rw [← List.nil_append rest, htext]; rfl)).2 rfl
    | cons d digits =>
      obtain ⟨rfl, -⟩ := List.cons.inj htext
      exact absurd (hdigits '*' List.mem_cons_self) (by decide)
  · dsimp only
    rw [htake, hdrop, if_pos hle]
    cases digits <;> rfl

/-- Plain characters are read one by one. -/
theorem readPieces_append (total : Nat) {chars : List Char} (h : '%' ∉ chars) (steps : Nat)
    (rest : List Char) :
    readPieces total (chars.length + steps) (chars ++ rest) =
      chars.map .char ++ readPieces total steps rest := by
  induction chars with
  | nil => rw [List.length_nil, Nat.zero_add]; rfl
  | cons c chars ih =>
    obtain ⟨hc, hchars⟩ := List.ne_and_not_mem_of_not_mem_cons h
    rw [List.length_cons, Nat.add_right_comm, List.cons_append, readPieces, ih hchars]
    · rfl
    · exact fun heq => hc heq.symm

theorem readPieces_chars (total : Nat) {chars : List Char} (h : '%' ∉ chars) (steps : Nat) :
    readPieces total (chars.length + steps) chars = chars.map .char := by
  have hread := readPieces_append total h steps []
  have hend : readPieces total steps [] = [] := by cases steps <;> rfl
  rwa [List.append_nil, hend, List.append_nil] at hread

end Format

namespace WholeFormat

/-- The letter of a conversion is none of the characters in front of it. -/
theorem conversion_facts : ∀ c ∈ wholeConversions, isFlag c = false ∧ c.isDigit = false ∧
    c ∉ ['.', '*', '%', '(', 'h', 'l', 'L'] :=
  List.all_iff_forall_prop.1 (by decide)

variable (f : WholeFormat)

theorem mem_sizes {c : Char} (hc : c ∈ f.sizes) : isFlag c = true ∨ c.isDigit = true ∨ c = '.' := by
  rcases List.mem_append.1 hc with hc | hc
  · exact .inl (f.isFlag_flags c hc)
  rcases List.mem_append.1 hc with hc | hc
  · exact .inr (.inl (f.isDigit_width c hc))
  rw [precisionText] at hc
  cases hprecision : f.precision with
  | none => rw [hprecision] at hc; cases hc
  | some digits =>
    rw [hprecision] at hc
    rcases List.mem_cons.1 hc with rfl | hc
    · exact .inr (.inr rfl)
    · exact .inr (.inl (f.isDigit_precision digits hprecision c hc))

/-- The percent sign is not followed by one that it would belong to, or by a parenthesis. -/
theorem head_sizes : ∀ c ∈ (f.sizes ++ f.conversion :: f.after).head?, c ≠ '%' ∧ c ≠ '(' := by
  intro c hc
  have hmem : c ∈ f.sizes ++ [f.conversion] := by
    rw [List.append_cons, List.head?_append_of_ne_nil _ (by simp)] at hc
    exact List.mem_of_mem_head? hc
  have hne (c' : Char) (hc' : c' ∈ ['%', '(']) : c ≠ c' := by
    rintro rfl
    rcases List.mem_append.1 hmem with hmem | hmem
    · have hplain : ∀ c ∈ ['%', '('], ¬(isFlag c = true ∨ c.isDigit = true ∨ c = '.') :=
        List.all_iff_forall_prop.1 (by decide)
      exact hplain c hc' (f.mem_sizes hmem)
    · have hother : ∀ c ∈ ['%', '('], c ∉ wholeConversions :=
        List.all_iff_forall_prop.1 (by decide)
      exact hother c hc' (List.mem_singleton.1 hmem ▸ f.conversion_mem)
  exact ⟨hne '%' (by decide), hne '(' (by decide)⟩

theorem readPrecision_text :
    readPrecision (f.precisionText ++ f.conversion :: f.after) =
      (some f.directive.precision, f.conversion :: f.after) := by
  obtain ⟨-, hdigit, hplain⟩ := conversion_facts f.conversion f.conversion_mem
  have hpoint : f.conversion ≠ '.' := fun h => hplain (h ▸ List.mem_cons_self)
  have hstar : f.conversion ≠ '*' := fun h => hplain (by simp [h])
  cases hprecision : f.precision with
  | none => simp [precisionText, directive, hprecision, readPrecision, hpoint]
  | some digits =>
    have hlimit : wholePrecisionLimit ≤ precisionLimit := by decide
    have hread : readSize precisionLimit (digits ++ f.conversion :: f.after) = _ :=
      readSize_append (f.isDigit_precision digits hprecision)
        ((f.precision_le digits hprecision).trans hlimit)
        fun c hc => Option.some.inj hc ▸ ⟨hdigit, hstar⟩
    simp only [precisionText, directive, hprecision, List.cons_append, readPrecision, hread]
    -- Nothing behind the point stands for zero.
    cases digits <;> rfl

theorem readSize_text :
    readSize widthLimit (f.width ++ (f.precisionText ++ f.conversion :: f.after)) =
      (some f.directive.width, f.precisionText ++ f.conversion :: f.after) := by
  obtain ⟨-, hdigit, hplain⟩ := conversion_facts f.conversion f.conversion_mem
  refine readSize_append f.isDigit_width f.width_le fun c hc => ?_
  rw [precisionText] at hc
  cases hprecision : f.precision with
  | none =>
    rw [hprecision] at hc
    obtain rfl := Option.some.inj hc
    exact ⟨hdigit, fun h => hplain (by simp [h])⟩
  | some digits =>
    rw [hprecision] at hc
    obtain rfl := Option.some.inj hc
    exact ⟨rfl, by decide⟩

theorem span_flags :
    (f.sizes ++ f.conversion :: f.after).takeWhile isFlag = f.flags ∧
      (f.sizes ++ f.conversion :: f.after).dropWhile isFlag =
        f.width ++ (f.precisionText ++ f.conversion :: f.after) := by
  have hflag := (conversion_facts f.conversion f.conversion_mem).1
  have hhead : ∀ c ∈ (f.width ++ (f.precisionText ++ f.conversion :: f.after)).head?,
      isFlag c = false := by
    intro c hc
    cases hwidth : f.width with
    | cons d digits =>
      rw [hwidth] at hc
      obtain rfl := Option.some.inj hc
      -- The only digit among the flags is the zero.
      have hdigit := f.isDigit_width d (by simp [hwidth])
      have hzero : d ≠ '0' := fun h => f.head_width (by simp [hwidth, h])
      simp only [isFlag, Bool.or_eq_false_iff, beq_eq_false_iff_ne]
      refine ⟨⟨⟨⟨?_, ?_⟩, ?_⟩, ?_⟩, hzero⟩ <;> rintro rfl <;> cases hdigit
    | nil =>
      rw [hwidth, precisionText] at hc
      cases hprecision : f.precision with
      | none =>
        rw [hprecision] at hc
        exact Option.some.inj hc ▸ hflag
      | some digits =>
        rw [hprecision] at hc
        exact Option.some.inj hc ▸ rfl
  obtain ⟨htake, hdrop⟩ := @span_append f.flags _ _ hhead
  rw [sizes, List.append_assoc, List.append_assoc, htake, hdrop,
    List.takeWhile_eq_self_iff.2 f.isFlag_flags, List.dropWhile_eq_nil_iff.2 f.isFlag_flags]
  exact ⟨rfl, rfl⟩

theorem readDirective_text :
    readDirective f.text.length (f.sizes ++ f.conversion :: f.after) =
      (.directive f.directive, f.after) := by
  have hlength : dropLength (f.conversion :: f.after) = f.conversion :: f.after := by
    have hplain := (conversion_facts f.conversion f.conversion_mem).2.2
    have hne (c : Char) (hc : c ∈ ['.', '*', '%', '(', 'h', 'l', 'L']) : f.conversion ≠ c :=
      fun h => hplain (h ▸ hc)
    simp [dropLength, hne 'h' (by decide), hne 'l' (by decide), hne 'L' (by decide)]
  obtain ⟨htake, hdrop⟩ := f.span_flags
  have hhead := f.head_sizes
  generalize hrest : f.sizes ++ f.conversion :: f.after = rest at *
  unfold readDirective
  split
  · exact absurd rfl (hhead '%' rfl).1
  · exact absurd rfl (hhead '(' rfl).2
  · simp only [htake, hdrop, f.readSize_text, f.readPrecision_text, hlength]
    rfl

theorem pieces_text :
    pieces f.text = f.before.map .char ++ .directive f.directive :: f.after.map .char := by
  have hsteps : f.text.length = f.before.length + ((f.after.length + f.sizes.length + 1) + 1) := by
    simp [text]
    omega
  calc pieces f.text
      = readPieces f.text.length (f.before.length + ((f.after.length + f.sizes.length + 1) + 1))
          (f.before ++ '%' :: (f.sizes ++ f.conversion :: f.after)) := by
        rw [pieces, ← hsteps]
        rfl
    _ = f.before.map .char ++ .directive f.directive ::
          readPieces f.text.length (f.after.length + f.sizes.length + 1) f.after := by
        rw [readPieces_append _ f.percent_notMem_before, readPieces, f.readDirective_text]
    _ = f.before.map .char ++ .directive f.directive :: f.after.map .char := by
        rw [Nat.add_assoc, readPieces_chars _ f.percent_notMem_after]

/-! ## Showing -/

theorem wholeField_directive (base : Nat) (mark : List Char) (m : Int) :
    wholeField f.directive base mark m =
      .ok ⟨f.directive.signOf (m < 0), mark, f.filled (Nat.toDigits base m.natAbs), true⟩ := by
  cases hprecision : f.precision with
  | none => simp [wholeField, Directive.places?, directive, filled, hprecision]
  | some places =>
    have hle : ¬wholePrecisionLimit < valueIn 10 places :=
      Nat.not_lt.2 (f.precision_le places hprecision)
    simp [wholeField, Directive.places?, directive, filled, hprecision, hle]

theorem map_filled (digits : List Char) :
    (f.filled digits).map Char.toUpper = f.filled (digits.map Char.toUpper) := by
  rw [filled, filled]
  split
  · rw [List.map_append, List.map_replicate, List.length_map]
    rfl
  · rfl

/-- The directive writes the field that is promised. -/
theorem field_directive (m : Int) : f.directive.field (.whole m) = .ok (f.field m) := by
  have hconversion : f.directive.conversion = f.conversion := rfl
  have halternate : f.directive.alternate = f.flags.contains '#' := rfl
  have hmark : (if '#' ∈ f.flags then ['0', 'x'] else []).map Char.toUpper =
      if '#' ∈ f.flags then ['0', 'X'] else [] := by
    split <;> rfl
  have hmem := f.conversion_mem
  simp only [wholeConversions, List.mem_cons, List.not_mem_nil, or_false] at hmem
  rcases hmem with h | h | h | h | h | h <;>
    simp [Directive.field, hconversion, h, Argument.truncate, basedField, wholeField_directive,
      field, digits, base, isRegisterConversion, halternate, Except.map, Field.upper, map_filled,
      hmark]

/-- Every number is shown. -/
theorem show?_text (m : Int) :
    show? (String.ofList f.text) (.whole m) = .ok (String.ofList (f.shown m)) := by
  have hwidth : f.directive.width ≠ .argument := by
    simp only [directive]
    split <;> nofun
  have hprecision : f.directive.precision ≠ .argument := by
    simp only [directive]
    split <;> nofun
  have hpieces := f.pieces_text
  rw [← String.toList_ofList (l := f.text)] at hpieces
  rw [show?_between _ hpieces hwidth hprecision, f.field_directive]
  rfl

/-! ## The register -/

theorem getLast?_text : f.text.getLast? = some f.last := by
  rw [text, ← List.cons_append, ← List.append_assoc, List.getLast?_append, List.getLast?_cons]
  rfl

/-- The register is shown where the whole format ends in such a letter. -/
theorem showsRegister_text :
    Display.showsRegister (String.ofList f.text) = isRegisterConversion f.last := by
  rw [Display.showsRegister, String.toList_ofList, f.getLast?_text]
  rfl

/-! ### The minus sign -/

theorem minus_notMem_filled {digits : List Char} (h : '-' ∉ digits) : '-' ∉ f.filled digits := by
  rw [filled]
  split
  · simp [h, List.mem_replicate]
  · exact h

theorem minus_notMem_digits (n : Nat) : '-' ∉ f.digits n := by
  have hbase : 1 < f.base ∧ f.base ≤ 16 := by
    rw [base]
    split_ifs <;> decide
  have hne : ∀ d < 16, d.digitChar ≠ '-' ∧ d.digitChar.toUpper ≠ '-' := by decide
  refine f.minus_notMem_filled fun hmem => ?_
  split at hmem
  · obtain ⟨c, hc, hupper⟩ := List.mem_map.1 hmem
    obtain ⟨d, hd, rfl⟩ := exists_of_mem_toDigits hbase.1 n c hc
    exact (hne d (hd.trans_le hbase.2)).2 hupper
  · obtain ⟨d, hd, hc⟩ := exists_of_mem_toDigits hbase.1 n _ hmem
    exact (hne d (hd.trans_le hbase.2)).1 hc.symm

/-- Padding writes zeros and blanks only. -/
theorem mem_padded {field : Field} {d : Directive} {c : Char} (hzero : c ≠ '0') (hblank : c ≠ ' ') :
    c ∈ field.padded d ↔ c ∈ field.sign ++ field.mark ++ field.body := by
  rw [Field.padded]
  split_ifs <;> simp [List.mem_replicate, hzero, hblank]

/-- The sign of a negative number is the only minus sign there can be in a field. -/
theorem minus_mem_padded (m : Int) : '-' ∈ (f.field m).padded f.directive ↔ m < 0 := by
  have hmark : '-' ∉ (f.field m).mark := by
    have hconversion : f.conversion ≠ '-' := fun h =>
      absurd (h ▸ f.conversion_mem) (by decide)
    simp only [field]
    split
    · simp [hconversion.symm]
    · exact List.not_mem_nil
  have hbody : '-' ∉ (f.field m).body := f.minus_notMem_digits _
  have hsign : '-' ∈ (f.field m).sign ↔ m < 0 := by
    simp only [field, Directive.signOf]
    split_ifs with hnegative <;> simp_all
  rw [mem_padded (by decide) (by decide), List.mem_append, List.mem_append, hsign]
  simp [hmark, hbody]

/-- Numbers that are shown alike are both negative, or neither is. -/
theorem neg_iff_of_shown_eq {m m' : Int} (h : f.shown m = f.shown m') : m < 0 ↔ m' < 0 := by
  have hfield := List.append_cancel_right (List.append_cancel_left h)
  rw [← f.minus_mem_padded m, hfield, f.minus_mem_padded m']

/-! ### What is shown -/

/-- A format is given what the register holds exactly if the whole of it ends in the letter of
    such a conversion, whatever its own conversion is. So what is promised is shown for numbers
    that are not negative, and for the others where these two letters agree. -/
theorem whole_eq_promised_iff (n : Int64) :
    Display.whole (String.ofList f.text) n.toInt =
        String.ofList
          (f.shown (if isRegisterConversion f.last then registerOf n else n.toInt)) ∧
      (Display.whole (String.ofList f.text) n.toInt = String.ofList (f.promised n) ↔
        0 ≤ n.toInt ∨ isRegisterConversion f.last = isRegisterConversion f.conversion) := by
  have hshown : Display.whole (String.ofList f.text) n.toInt =
      String.ofList (f.shown (if isRegisterConversion f.last then registerOf n else n.toInt)) := by
    have hregistered : Display.registered (String.ofList f.text) n.toInt =
        if isRegisterConversion f.last then (registerOf n : Int) else n.toInt := by
      cases hlast : isRegisterConversion f.last with
      | true => exact Display.registered_toInt (f.showsRegister_text.trans hlast) n
      | false => rw [Display.registered, f.showsRegister_text, hlast, Bool.and_false]; rfl
    rw [Display.whole, hregistered, f.show?_text]
  refine ⟨hshown, ?_⟩
  rw [hshown, String.ofList_inj, promised]
  constructor
  · intro hsame
    by_contra! h
    obtain ⟨hneg, hne⟩ := h
    have hiff := f.neg_iff_of_shown_eq hsame
    have hregister : ¬(registerOf n : Int) < 0 := by omega
    -- One of the two is the register, which is not negative.
    cases hlast : isRegisterConversion f.last <;> cases hown : isRegisterConversion f.conversion <;>
      simp_all
  · rintro (hnonneg | hsame)
    · rw [registerOf_of_nonneg hnonneg, ite_self, ite_self]
    · rw [hsame]

/-- A letter behind the conversion hides it, and one behind a decimal conversion is taken
    for it. -/
theorem hex_suffix_hides_register :
    ∃ h x : WholeFormat, h.text = "%Xh".toList ∧ h.conversion = 'X' ∧
      h.promised (-255) = "FFFFFFFFFFFFFF01h".toList ∧ Display.whole "%Xh" (-255) = "-FFh" ∧
      x.text = "%dx".toList ∧ x.conversion = 'd' ∧ x.promised (-5) = "-5x".toList ∧
      Display.whole "%dx" (-5) = "18446744073709551611x" := by
  let plain (conversion behind : Char) (h : conversion ∈ wholeConversions)
      (hbehind : '%' ∉ [behind]) : WholeFormat :=
    ⟨[], [], [], none, conversion, [behind], List.not_mem_nil, hbehind, List.forall_mem_nil _,
      List.forall_mem_nil _, nofun, Nat.zero_le _, nofun, nofun, h⟩
  exact ⟨plain 'X' 'h' (by decide) (by decide), plain 'd' 'x' (by decide) (by decide), rfl, rfl,
    by decide, by decide, rfl, rfl, by decide, by decide⟩

end WholeFormat

end Reckoner
