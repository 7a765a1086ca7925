import WadCatalog.Bytes.LittleEndian

/-
  Sources of bytes.

  Containers read through a source: a stream of known size with one cursor.  A read delivers at most
  what was asked for, from the cursor on, and moves the cursor behind it; a seek moves the cursor or
  fails.  A source that could not be opened is a source all the same, one that says it is not valid.

  The laws in the class are those the readers rely on: a read is never longer than asked for, and
  neither reading nor seeking changes the size or the validity.
-/

namespace WadCatalog

/-- A stream of bytes with a cursor. -/
class ByteSource (σ : Type) where
  /-- Reads at most the given number of bytes at the cursor. -/
  read : σ → Nat → Bytes × σ
  /-- Moves the cursor to a position from the start; says whether it did. -/
  seek : σ → Nat → Bool × σ
  /-- How many bytes the source says it has. -/
  size : σ → Nat
  /-- Whether there is a stream behind the source. -/
  isValid : σ → Bool
  /-- A read delivers no more than was asked for. -/
  length_read_le : ∀ source count, (read source count).1.length ≤ count
  /-- A read leaves the size as it is. -/
  size_read : ∀ source count, size (read source count).2 = size source
  /-- A seek leaves the size as it is. -/
  size_seek : ∀ source position, size (seek source position).2 = size source
  /-- A read leaves the validity as it is. -/
  isValid_read : ∀ source count, isValid (read source count).2 = isValid source
  /-- A seek leaves the validity as it is. -/
  isValid_seek : ∀ source position, isValid (seek source position).2 = isValid source

namespace ByteSource

variable {σ : Type} [ByteSource σ]

/-- Reads exactly `count` bytes, or nothing; the cursor moves either way. -/
def readExactly (source : σ) (count : Nat) : Option Bytes × σ :=
  let (bytes, source) := read source count
  (if bytes.length = count then some bytes else none, source)

/-- Reads an unsigned number of four bytes. -/
def readUInt32 (source : σ) : Option Nat × σ :=
  let (bytes, source) := readExactly source 4
  (bytes.map LittleEndian.toNat, source)

/-- Reads a signed number of four bytes. -/
def readInt32 (source : σ) : Option Int32 × σ :=
  let (bytes, source) := readExactly source 4
  (bytes.map LittleEndian.toInt32, source)

/-- Reads at most `count` bytes at a position; nothing if the cursor cannot be moved there. -/
def readAt (source : σ) (position count : Nat) : Bytes × σ :=
  match seek source position with
  | (true, source) => read source count
  | (false, source) => ([], source)

theorem length_readAt_le (source : σ) (position count : Nat) :
    (readAt source position count).1.length ≤ count := by
  unfold readAt
  split
  · exact length_read_le _ _
  · exact Nat.zero_le _

@[simp] theorem size_readAt (source : σ) (position count : Nat) :
    size (readAt source position count).2 = size source := by
  have hseek := size_seek source position
  unfold readAt
  split
  next h => rw [size_read, ← hseek, h]
  next h => rw [← hseek, h]

end ByteSource

end WadCatalog
