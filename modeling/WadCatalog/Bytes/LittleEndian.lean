import WadCatalog.Bytes

/-
  Little-endian numbers: the lowest byte comes first.

  `toNat` reads a byte string as a number and `ofNat` writes a number in a given width.  What was
  written is read back as long as the width has room for it, modulo `capacity width` otherwise
  (`toNat_ofNat`).  The 32-bit signed numbers of an archive are the two's complement reading of four
  bytes (`toInt32`, `ofInt32`), and every such number survives being written and read back
  (`toInt32_ofInt32`).
-/

namespace WadCatalog.LittleEndian

/-! ## Natural numbers of a fixed width -/

/-- The number whose base-256 digits are `bytes`, lowest digit first. -/
def toNat : Bytes → Nat
  | [] => 0
  | byte :: rest => byte.toNat + 256 * toNat rest

/-- The lowest `width` base-256 digits of `n`, lowest digit first. -/
def ofNat : (width : Nat) → (n : Nat) → Bytes
  | 0, _ => []
  | width + 1, n => UInt8.ofNat n :: ofNat width (n / 256)

/-- How many numbers so many bytes tell apart. -/
def capacity : (width : Nat) → Nat
  | 0 => 1
  | width + 1 => 256 * capacity width

@[simp] theorem length_ofNat (width n : Nat) : (ofNat width n).length = width := by
  induction width generalizing n with
  | zero => rfl
  | succ width ih => simp [ofNat, ih]

/-- Reading back gives the number modulo the width. -/
theorem toNat_ofNat (width n : Nat) : toNat (ofNat width n) = n % capacity width := by
  induction width generalizing n with
  | zero => simp [ofNat, toNat, capacity, Nat.mod_one]
  | succ width ih =>
    have hbyte : (UInt8.ofNat n).toNat = n % 256 := UInt8.toNat_ofNat'
    rw [ofNat, toNat, ih, hbyte, capacity, Nat.mod_mul]

/-! ## Signed 32-bit numbers -/

/-- Four bytes read as a signed 32-bit number in two's complement. -/
def toInt32 (bytes : Bytes) : Int32 := Int32.ofNat (toNat bytes)

/-- The four bytes of a signed 32-bit number. -/
def ofInt32 (x : Int32) : Bytes := ofNat 4 x.toUInt32.toNat

@[simp] theorem length_ofInt32 (x : Int32) : (ofInt32 x).length = 4 := length_ofNat _ _

/-- Every signed number survives being written and read back. -/
@[simp] theorem toInt32_ofInt32 (x : Int32) : toInt32 (ofInt32 x) = x := by
  have hlt := x.toUInt32.toNat_lt
  have hcapacity : capacity 4 = 4294967296 := rfl
  rw [toInt32, ofInt32, toNat_ofNat, Nat.mod_eq_of_lt (by omega)]
  simp [Int32.ofNat]

example : toInt32 [0x01, 0x02, 0x00, 0x00] = 513 := by decide
example : toInt32 [0xff, 0xff, 0xff, 0xff] = -1 := by decide
example : ofInt32 (-2) = [0xfe, 0xff, 0xff, 0xff] := by decide

end WadCatalog.LittleEndian
