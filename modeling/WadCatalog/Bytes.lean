/-
  Byte strings, the raw material of every archive and every file.

  A byte string is a `List UInt8`, so that taking a range of it is `drop` and `take` and every law
  is a law of lists.  The module adds the three things the rest of the library asks for by name:
  a range (`slice`), a buffer whose front is written over (`overwrite`), and the hexadecimal text
  of a byte string (`toHex`).  Their order is the order of lists as well (`compare_eq_lt_iff`).
-/

namespace WadCatalog

/-- A string of bytes. -/
abbrev Bytes := List UInt8

namespace Bytes

/-! ## Ranges -/

/-- The `count` bytes from position `start` on, or as many of them as there are. -/
def slice (bytes : Bytes) (start count : Nat) : Bytes := (bytes.drop start).take count

theorem length_slice (bytes : Bytes) (start count : Nat) :
    (slice bytes start count).length = min count (bytes.length - start) := by
  simp [slice]

/-- A range that lies inside has exactly the length asked for. -/
theorem length_slice_of_le {bytes : Bytes} {start count : Nat} (h : start + count ≤ bytes.length) :
    (slice bytes start count).length = count := by
  rw [length_slice]; omega

/-- Two neighbouring ranges make one. -/
theorem slice_append_slice (bytes : Bytes) (start m n : Nat) :
    slice bytes start m ++ slice bytes (start + m) n = slice bytes start (m + n) := by
  simp [slice, List.take_add, List.drop_drop]

/-- A range that ends inside the first part does not see the second. -/
theorem slice_append_left {front back : Bytes} {start count : Nat}
    (h : start + count ≤ front.length) :
    slice (front ++ back) start count = slice front start count := by
  unfold slice
  rw [List.drop_append_of_le_length (by omega), List.take_append_of_le_length (by simp; omega)]

/-- A range that starts right after the first part is a range of the second. -/
theorem slice_append_right (front back : Bytes) (start count : Nat) :
    slice (front ++ back) (front.length + start) count = slice back start count := by
  simp [slice]

/-- A range of a range, if it lies inside, is a range of the whole. -/
theorem slice_slice {bytes : Bytes} {start count inner wanted : Nat} (h : inner + wanted ≤ count) :
    slice (slice bytes start count) inner wanted = slice bytes (start + inner) wanted := by
  have hmin : min wanted (count - inner) = wanted := by omega
  simp only [slice, List.drop_take, List.take_take, List.drop_drop, hmin]

/-- The front of a range, as long as it is, is a range itself. -/
theorem eq_slice_of_isPrefix {bytes front : Bytes} {start count : Nat}
    (h : front <+: slice bytes start count) : front = slice bytes start front.length := by
  have hle : front.length ≤ count := by
    have hlength := h.length_le
    rw [length_slice] at hlength
    omega
  have htake := List.prefix_iff_eq_take.1 h
  rw [slice, List.take_take, Nat.min_eq_left hle] at htake
  exact htake

/-! ## Buffers -/

/-- `buffer` after `data` has been written over its front; the rest keeps its bytes. -/
def overwrite (buffer data : Bytes) : Bytes := data ++ buffer.drop data.length

theorem length_overwrite {buffer data : Bytes} (h : data.length ≤ buffer.length) :
    (overwrite buffer data).length = buffer.length := by
  simp [overwrite]; omega

/-- The front of a buffer that was written over is what was written. -/
theorem take_overwrite (buffer data : Bytes) : (overwrite buffer data).take data.length = data :=
  List.take_left

/-- Behind what was written a buffer keeps its bytes. -/
theorem drop_overwrite (buffer data : Bytes) :
    (overwrite buffer data).drop data.length = buffer.drop data.length :=
  List.drop_left

/-! ## Order -/

/-- Bytes are compared one after another. -/
theorem compare_eq_lt_iff (left right : Bytes) : compare left right = .lt ↔ left < right := by
  induction left generalizing right with
  | nil => cases right <;> simp
  | cons byte rest ih =>
    cases right with
    | nil => simp
    | cons other more =>
      rw [List.compare_cons_cons, Ordering.then_eq_lt, List.cons_lt_cons_iff, Std.compare_eq_lt,
        Std.LawfulEqOrd.compare_eq_iff_eq, ih]

/-! ## Hexadecimal text -/

/-- The lower-case digit for a value below sixteen. -/
def hexDigit (value : Nat) : Char := Nat.digitChar value

/-- Two lower-case hexadecimal digits for one byte. -/
def hexPair (byte : UInt8) : List Char := [hexDigit (byte.toNat / 16), hexDigit (byte.toNat % 16)]

/-- Two lower-case digits a byte, with nothing between them. -/
def toHex (bytes : Bytes) : String := String.ofList (bytes.flatMap hexPair)

end Bytes

end WadCatalog
