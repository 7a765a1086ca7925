import WadCatalog.Bytes

/-
  Case in the ASCII range.

  Names and paths are compared and folded without regard to case only for the twenty-six letters
  `a` to `z`; every other character, accented letters included, is its own upper case.  Core's
  `Char.toUpper` is this very function on characters; `upperByte` is the same on bytes.
-/

namespace WadCatalog.Ascii

/-- The upper-case form of a byte that is a lower-case ASCII letter, and any other byte itself. -/
def upperByte (byte : UInt8) : UInt8 :=
  if 0x61 ≤ byte ∧ byte ≤ 0x7a then byte - 0x20 else byte

/-- That a byte is a lower-case ASCII letter. -/
def IsLower (byte : UInt8) : Prop := 0x61 ≤ byte.toNat ∧ byte.toNat ≤ 0x7a

/-- The text with its lower-case ASCII letters in upper case. -/
def upper (text : String) : String := String.ofList (text.toList.map Char.toUpper)

/-- Whether two texts differ at most in the case of ASCII letters. -/
def equalIgnoringCase (a b : String) : Bool :=
  a.toList.map Char.toUpper == b.toList.map Char.toUpper

/-- Folding a byte, in numbers. -/
theorem toNat_upperByte (byte : UInt8) :
    (upperByte byte).toNat =
      if 0x61 ≤ byte.toNat ∧ byte.toNat ≤ 0x7a then byte.toNat - 0x20 else byte.toNat := by
  have hlow : (0x61 : UInt8) ≤ byte ↔ 0x61 ≤ byte.toNat := UInt8.le_iff_toNat_le
  have hhigh : byte ≤ (0x7a : UInt8) ↔ byte.toNat ≤ 0x7a := UInt8.le_iff_toNat_le
  simp only [upperByte, hlow, hhigh]
  split
  next h =>
    have hle : (0x20 : UInt8) ≤ byte := UInt8.le_iff_toNat_le.2 (Nat.le_trans (by decide) h.1)
    rw [UInt8.toNat_sub_of_le _ _ hle]
    rfl
  next => rfl

/-- An upper-case byte is its own upper case. -/
theorem upperByte_upperByte (byte : UInt8) : upperByte (upperByte byte) = upperByte byte := by
  apply UInt8.toNat_inj.1
  rw [toNat_upperByte (upperByte byte)]
  have h := toNat_upperByte byte
  split at h <;> split <;> omega

/-- Just the lower-case letters are changed. -/
theorem upperByte_eq_self_iff {byte : UInt8} : upperByte byte = byte ↔ ¬ IsLower byte := by
  rw [IsLower, ← UInt8.toNat_inj, toNat_upperByte]
  split <;> omega

/-- Only a byte below the letters itself is folded to it. -/
theorem upperByte_eq_iff {target : UInt8} (h : target.toNat < 0x41) (byte : UInt8) :
    upperByte byte = target ↔ byte = target := by
  rw [← UInt8.toNat_inj, ← UInt8.toNat_inj, toNat_upperByte]
  split <;> omega

/-- So folding keeps the terminator apart. -/
theorem upperByte_eq_zero_iff (byte : UInt8) : upperByte byte = 0 ↔ byte = 0 :=
  upperByte_eq_iff (by decide) byte

example : upper "Things.été" = "THINGS.éTé" := by decide
example : equalIgnoringCase "behavior" "BEHAVIOR" = true := by decide

end WadCatalog.Ascii
