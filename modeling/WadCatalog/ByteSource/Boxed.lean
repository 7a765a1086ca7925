import WadCatalog.ByteSource

/-
  Sources in a box.

  A container may be opened over a source of any type, and then sees nothing of it but its answers.
  So a source in a box is its answers: what each read delivers and whether each seek succeeds, after
  whatever calls there have been.  Every source can be put in a box (`box`), and its type is gone
  then.
-/

namespace WadCatalog

/-- A call of a source that moves its cursor. -/
inductive SourceCall where
  /-- So many bytes are read. -/
  | read (count : Nat)
  /-- The cursor is moved to a position. -/
  | seek (position : Nat)
  deriving DecidableEq

/-- A source of which nothing is known but its answers. -/
structure BoxedSource where
  /-- What a read delivers after some calls, the latest first. -/
  delivers : List SourceCall → Nat → Bytes
  /-- Whether the cursor can be moved after some calls, the latest first. -/
  moves : List SourceCall → Nat → Bool
  /-- The size the source says it has. -/
  size : Nat
  /-- Whether the source says it is valid. -/
  isValid : Bool
  /-- A read delivers no more than was asked for. -/
  length_delivers_le : ∀ calls count, (delivers calls count).length ≤ count
  /-- The calls there have been, the latest first. -/
  calls : List SourceCall := []

namespace BoxedSource

/-- Reads at most `count` bytes. -/
def read (source : BoxedSource) (count : Nat) : Bytes × BoxedSource :=
  (source.delivers source.calls count, { source with calls := .read count :: source.calls })

/-- Moves the cursor. -/
def seek (source : BoxedSource) (position : Nat) : Bool × BoxedSource :=
  (source.moves source.calls position, { source with calls := .seek position :: source.calls })

instance : ByteSource BoxedSource where
  read := read
  seek := seek
  size := size
  isValid := isValid
  length_read_le source count := source.length_delivers_le source.calls count
  size_read _ _ := rfl
  size_seek _ _ := rfl
  isValid_read _ _ := rfl
  isValid_seek _ _ := rfl

section Box

variable {σ : Type} [ByteSource σ]

/-- What becomes of a source by some calls, the latest first. -/
def after (source : σ) : List SourceCall → σ
  | [] => source
  | .read count :: earlier => (ByteSource.read (after source earlier) count).2
  | .seek position :: earlier => (ByteSource.seek (after source earlier) position).2

/-- Puts a source in a box. -/
def box (source : σ) : BoxedSource where
  delivers calls count := (ByteSource.read (after source calls) count).1
  moves calls position := (ByteSource.seek (after source calls) position).1
  size := ByteSource.size source
  isValid := ByteSource.isValid source
  length_delivers_le calls count := ByteSource.length_read_le (after source calls) count

end Box

end BoxedSource

end WadCatalog
