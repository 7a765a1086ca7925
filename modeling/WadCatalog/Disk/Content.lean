import WadCatalog.Bytes

/-
  What a file holds.

  Files may be very long and yet hold nothing but zero bytes for most of their length.  So content
  is kept as the bytes in front and the number of zero bytes behind them; `slice` reads a range
  without writing out what lies around it, and gives what the whole byte string would give
  (`slice_eq`).
-/

namespace WadCatalog

/-- What a file holds: some bytes, and zero bytes behind them. -/
structure Content where
  /-- The bytes in front. -/
  stored : Bytes
  /-- The number of zero bytes behind them. -/
  zeros : Nat
  deriving DecidableEq

namespace Content

/-- Content without a stretch of zero bytes. -/
def ofBytes (bytes : Bytes) : Content := ⟨bytes, 0⟩

/-- Nothing but zero bytes. -/
def blank (count : Nat) : Content := ⟨[], count⟩

/-- How many bytes there are. -/
def size (content : Content) : Nat := content.stored.length + content.zeros

/-- All bytes. -/
def bytes (content : Content) : Bytes := content.stored ++ List.replicate content.zeros 0

@[simp] theorem length_bytes (content : Content) : content.bytes.length = content.size := by
  simp [bytes, size]

/-- The `count` bytes from position `start` on, or as many of them as there are. -/
def slice (content : Content) (start count : Nat) : Bytes :=
  let front := content.stored.slice start count
  front ++ List.replicate
    (min (count - front.length) (content.size - max start content.stored.length)) 0

/-- A range is what it is in the string of all bytes. -/
theorem slice_eq (content : Content) (start count : Nat) :
    content.slice start count = content.bytes.slice start count := by
  obtain ⟨stored, zeros⟩ := content
  simp only [slice, bytes, size, Bytes.length_slice]
  unfold Bytes.slice
  rw [List.drop_append, List.take_append, List.drop_replicate, List.take_replicate,
    List.length_drop]
  congr 2
  omega

@[simp] theorem length_slice (content : Content) (start count : Nat) :
    (content.slice start count).length = min count (content.size - start) := by
  rw [slice_eq, Bytes.length_slice, length_bytes]

@[simp] theorem bytes_ofBytes (bytes : Bytes) : (ofBytes bytes).bytes = bytes := by
  simp [ofBytes, Content.bytes]

example : (⟨[1, 2], 3⟩ : Content).slice 1 3 = [2, 0, 0] := by decide
example : (blank 5).slice 4 9 = [0] := by decide

end Content

end WadCatalog
