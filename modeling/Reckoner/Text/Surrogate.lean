/-!
# Surrogates

Characters are numbered, and a text holds any of them. Numbers in the range of
surrogates are no characters, but can be asked for all the same, by showing a
number as the character it is the number of. Each of them has a stand-in, a
character for private use a fixed distance above it (`charOfCode`), and counts
as that surrogate from then on (`codeOf`).
-/

namespace Reckoner.Text

/-- The number of a surrogate. -/
def isSurrogate (code : Nat) : Bool :=
  0xd800 ≤ code && code < 0xe000

/-- How far above a surrogate its stand-in is. -/
def standInDistance : Nat := 0x100000

/-- The character with a number below 0x110000, or its stand-in. -/
def charOfCode (code : Nat) : Char :=
  Char.ofNat (if isSurrogate code then code + standInDistance else code)

/-- The number of the character, or of the surrogate that it stands for. -/
def codeOf (c : Char) : Nat :=
  let code := c.toNat - standInDistance
  if isSurrogate code then code else c.toNat

/-- The stand-in of a surrogate counts as that surrogate. -/
theorem codeOf_charOfCode {code : Nat} (h : isSurrogate code = true) :
    codeOf (charOfCode code) = code := by
  have hcode : 0xd800 ≤ code ∧ code < 0xe000 := by simpa [isSurrogate] using h
  have hvalid : (code + standInDistance).isValidChar := by
    unfold standInDistance
    exact .inr ⟨by omega, by omega⟩
  have hchar : charOfCode code = Char.ofNatAux (code + standInDistance) hvalid := by
    unfold charOfCode
    rw [if_pos h]
    exact dif_pos hvalid
  have hnat : (charOfCode code).toNat = code + standInDistance := by
    rw [hchar]
    rfl
  unfold codeOf
  rw [hnat, Nat.add_sub_cancel]
  exact if_pos h

end Reckoner.Text
