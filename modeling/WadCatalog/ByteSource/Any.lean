import WadCatalog.ByteSource.Boxed
import WadCatalog.ByteSource.Stream
import WadCatalog.ByteSource.Custom

/-
  Any source a container may have been opened over.

  Streams and custom sources are kept as they are, since a stream may have a file open that is
  written later.  A source of any other type is kept in a box.
-/

namespace WadCatalog

/-- A source of any kind. -/
inductive AnySource where
  /-- A stream. -/
  | stream (stream : Stream)
  /-- A source with limits of its own. -/
  | custom (source : CustomSource)
  /-- A source of any other type. -/
  | boxed (source : BoxedSource)

namespace AnySource

/-- Reads at most `count` bytes. -/
def read (source : AnySource) (count : Nat) : Bytes × AnySource :=
  match source with
  | .stream inner => let (bytes, inner) := ByteSource.read inner count; (bytes, .stream inner)
  | .custom inner => let (bytes, inner) := ByteSource.read inner count; (bytes, .custom inner)
  | .boxed inner => let (bytes, inner) := ByteSource.read inner count; (bytes, .boxed inner)

/-- Moves the cursor. -/
def seek (source : AnySource) (position : Nat) : Bool × AnySource :=
  match source with
  | .stream inner => let (moved, inner) := ByteSource.seek inner position; (moved, .stream inner)
  | .custom inner => let (moved, inner) := ByteSource.seek inner position; (moved, .custom inner)
  | .boxed inner => let (moved, inner) := ByteSource.seek inner position; (moved, .boxed inner)

/-- How many bytes the source says it has. -/
def size : AnySource → Nat
  | .stream inner => ByteSource.size inner
  | .custom inner => ByteSource.size inner
  | .boxed inner => ByteSource.size inner

/-- Whether there is a stream behind the source. -/
def isValid : AnySource → Bool
  | .stream inner => ByteSource.isValid inner
  | .custom inner => ByteSource.isValid inner
  | .boxed inner => ByteSource.isValid inner

instance : ByteSource AnySource where
  read := read
  seek := seek
  size := size
  isValid := isValid
  length_read_le source count := by
    cases source with
    | stream inner => exact ByteSource.length_read_le inner count
    | custom inner => exact ByteSource.length_read_le inner count
    | boxed inner => exact ByteSource.length_read_le inner count
  size_read source count := by
    cases source with
    | stream inner => exact ByteSource.size_read inner count
    | custom inner => exact ByteSource.size_read inner count
    | boxed inner => exact ByteSource.size_read inner count
  size_seek source position := by
    cases source with
    | stream inner => exact ByteSource.size_seek inner position
    | custom inner => exact ByteSource.size_seek inner position
    | boxed inner => exact ByteSource.size_seek inner position
  isValid_read source count := by
    cases source with
    | stream inner => exact ByteSource.isValid_read inner count
    | custom inner => exact ByteSource.isValid_read inner count
    | boxed inner => exact ByteSource.isValid_read inner count
  isValid_seek source position := by
    cases source with
    | stream inner => exact ByteSource.isValid_seek inner position
    | custom inner => exact ByteSource.isValid_seek inner position
    | boxed inner => exact ByteSource.isValid_seek inner position

/-- The source after a file of the disk was written. -/
def written (source : AnySource) (file : NodeId) (content : Content) : AnySource :=
  match source with
  | .stream inner => .stream (inner.written file content)
  | .custom inner => .custom inner
  | .boxed inner => .boxed inner

end AnySource

end WadCatalog
