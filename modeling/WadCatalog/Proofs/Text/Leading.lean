import WadCatalog.Text.Utf8

/-
  Leading bytes.

  The first byte of a character decides what may follow it, by nine cases of numbers.  They are gone
  through here once.  A reader that is inside a character can still get some numbers out of it, those of
  a range (`least`, `bound`), and a number is written with a certain leading byte (`lead`).  Both say
  the same: where a leading byte leads, exactly the characters can come out that start with it
  (`LeadsTo`).  The narrower bounds after `E0`, `ED`, `F0` and `F4` are what makes it exact: without
  them, shorter characters, surrogates or numbers beyond the last character would come out too.
-/

namespace WadCatalog.Utf8

/-! ## What can still come out -/

/-- How many numbers the bytes that are still owed can tell apart. -/
def choices : (owed : Nat) → Nat
  | 0 => 1
  | owed + 1 => 64 * choices owed

/-- The least number that can still come out inside a character. -/
def least (owed : Nat) (low : UInt8) (code : Nat) : Nat :=
  (code * 64 + (low.toNat - 0x80)) * choices owed

/-- The first number that cannot come out any more. -/
def bound (owed : Nat) (high : UInt8) (code : Nat) : Nat :=
  (code * 64 + (high.toNat - 0x80) + 1) * choices owed

/-! ## How a number starts -/

/-- How many bytes continue the character with the given number. -/
def continuing (number : Nat) : Nat :=
  if number < 0x80 then 0 else if number < 0x800 then 1 else if number < 0x10000 then 2 else 3

/-- The least leading byte of characters that so many bytes continue. -/
def leadBase : (owed : Nat) → Nat
  | 0 => 0
  | 1 => 0xC0
  | 2 => 0xE0
  | _ => 0xF0

/-- The leading byte of the character with the given number. -/
def lead (number : Nat) : Nat :=
  leadBase (continuing number) + number / choices (continuing number)

/-- The size of a number decides how many bytes continue it and what the leading one is. -/
theorem lead_cases (number : Nat) :
    (number < 0x80 ∧ continuing number = 0 ∧ lead number = number) ∨
      (0x80 ≤ number ∧ number < 0x800 ∧ continuing number = 1 ∧
        lead number = 0xC0 + number / 64) ∨
      (0x800 ≤ number ∧ number < 0x10000 ∧ continuing number = 2 ∧
        lead number = 0xE0 + number / 4096) ∨
      (0x10000 ≤ number ∧ continuing number = 3 ∧ lead number = 0xF0 + number / 262144) := by
  unfold lead continuing
  split
  next hlt => exact .inl ⟨hlt, rfl, by simp [leadBase, choices]⟩
  next hge =>
    split
    next hlt => exact .inr (.inl ⟨by omega, hlt, rfl, by simp [leadBase, choices]⟩)
    next hge' =>
      split
      next hlt => exact .inr (.inr (.inl ⟨by omega, hlt, rfl, by simp [leadBase, choices]⟩))
      next hge'' => exact .inr (.inr (.inr ⟨by omega, rfl, by simp [leadBase, choices]⟩))

/-! ## Where a leading byte leads -/

/-- That inside a character, with `owed` more bytes behind the next one, exactly the numbers of the
characters with this leading byte can come out. -/
structure LeadsTo (byte : UInt8) (owed : Nat) (low high : UInt8) (code : Nat) : Prop where
  low_ge : 0x80 ≤ low.toNat
  high_ge : 0x80 ≤ high.toNat
  high_le : high.toNat ≤ 0xBF
  inRange_iff : ∀ number, least owed low code ≤ number ∧ number < bound owed high code ↔
    number.isValidChar ∧ lead number = byte.toNat
  continuing_eq : ∀ number, number.isValidChar → lead number = byte.toNat →
    continuing number = owed + 1

/-- What the first byte of a character can do: be ASCII, be ill-formed, and then no character starts
with it, or lead into the characters that start with it, without anything coming out. -/
theorem opening_cases (byte : UInt8) :
    (byte.toNat < 0x80 ∧ opening byte = ([some (Char.ofNat byte.toNat)], .start)) ∨
      (0x80 ≤ byte.toNat ∧ opening byte = ([none], .start) ∧
        ∀ number, number.isValidChar → lead number ≠ byte.toNat) ∨
      (0x80 ≤ byte.toNat ∧ ∃ owed low high code,
        opening byte = ([], .inside owed low high code) ∧ LeadsTo byte owed low high code) := by
  have hless : ∀ other : UInt8, byte < other ↔ byte.toNat < other.toNat :=
    fun _ => UInt8.lt_iff_toNat_lt
  have hsame : ∀ other : UInt8, byte = other ↔ byte.toNat = other.toNat :=
    fun _ => UInt8.toNat_inj.symm
  obtain ⟨result, hresult⟩ : ∃ result, opening byte = result := ⟨_, rfl⟩
  rw [hresult]
  simp only [opening, hless, hsame, UInt8.reduceToNat] at hresult
  split at hresult
  · exact .inl ⟨by assumption, hresult.symm⟩
  right
  split at hresult
  · refine .inl ⟨by omega, hresult.symm, ?_⟩
    intro number hvalid
    have hcases := lead_cases number
    omega
  -- two bytes, three after `E0`, three after `ED`, three, four after `F0`, four, four after `F4`
  iterate 7
    split at hresult
    · refine .inr ⟨by omega, _, _, _, _, hresult.symm, by decide, by decide, by decide, ?_, ?_⟩
      · intro number
        have hcases := lead_cases number
        simp only [least, bound, choices, UInt8.reduceToNat]
        unfold Nat.isValidChar
        omega
      · intro number hvalid
        have hcases := lead_cases number
        omega
  · refine .inl ⟨by omega, hresult.symm, ?_⟩
    intro number hvalid
    have hcases := lead_cases number
    unfold Nat.isValidChar at hvalid
    omega

end WadCatalog.Utf8
