import WadCatalog.ByteSource

/-
  Sources that follow rules of their own.

  A source may say that it has more or fewer bytes than it delivers, may refuse positions beyond
  some limit, and may deliver only so many bytes at a time.  `CustomSource` is such a source over
  bytes in memory.
-/

namespace WadCatalog

/-- A source over bytes in memory with limits of its own. -/
structure CustomSource where
  /-- The bytes that are read. -/
  data : Bytes
  /-- Where the next byte comes from. -/
  cursor : Nat := 0
  /-- The size the source says it has. -/
  size : Nat
  /-- Whether the source says it is valid. -/
  isValid : Bool
  /-- The last position the cursor can be moved to, if there is one. -/
  seekMax : Option Nat
  /-- How many bytes one read delivers at most, if there is a limit. -/
  readMax : Option Nat
  deriving DecidableEq

namespace CustomSource

/-- Reads at most `count` bytes. -/
def read (source : CustomSource) (count : Nat) : Bytes × CustomSource :=
  let bytes := source.data.slice source.cursor (source.readMax.elim count fun most => min most count)
  (bytes, { source with cursor := source.cursor + bytes.length })

/-- Moves the cursor, unless the position lies behind the limit. -/
def seek (source : CustomSource) (position : Nat) : Bool × CustomSource :=
  if source.seekMax.any (· < position) then (false, source)
  else (true, { source with cursor := position })

instance : ByteSource CustomSource where
  read := read
  seek := seek
  size := size
  isValid := isValid
  length_read_le source count := by
    simp only [read, Bytes.length_slice]
    cases source.readMax with
    | none => exact Nat.min_le_left _ _
    | some most => exact Nat.le_trans (Nat.min_le_left _ _) (Nat.min_le_right _ _)
  size_read _ _ := rfl
  size_seek source position := by unfold seek; split <;> rfl
  isValid_read _ _ := rfl
  isValid_seek source position := by unfold seek; split <;> rfl

end CustomSource

end WadCatalog
