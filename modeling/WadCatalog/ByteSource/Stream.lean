import WadCatalog.ByteSource
import WadCatalog.Disk

/-
  Streams over readers.

  A `Reader` stands for what an operating system offers: one call may deliver less than was asked
  for, may be interrupted, or may fail.  How the next calls go is written down in the reader as a
  list of deliveries; behind its end every call delivers all there is.

  A `Stream` turns such a reader into a source.  One read of the stream calls the reader until the
  bytes asked for are there.  It goes on after an interruption, and it stops at a failure or when a
  call delivers nothing, keeping what it has.  The size is measured once, when the stream is made,
  and measuring leaves the cursor at the end.
-/

namespace WadCatalog

/-- How one call of a reader goes. -/
inductive Delivery where
  /-- It delivers no more than `count` bytes; no bytes at all count as the end. -/
  | atMost (count : Nat)
  /-- It is interrupted. -/
  | interrupted
  /-- It fails. -/
  | failed
  deriving DecidableEq

/-- Something that delivers the bytes of some content. -/
structure Reader where
  /-- What is read. -/
  content : Content
  /-- Where the next byte comes from. -/
  cursor : Nat := 0
  /-- How the next calls go; afterwards every call delivers all there is. -/
  deliveries : List Delivery := []
  /-- Whether moving the cursor to the end fails. -/
  endUnreachable : Bool := false
  /-- The positions that the cursor cannot be moved to. -/
  refuses : Nat → Bool := fun _ => false
  /-- The file that is read, if it is a file. -/
  file : Option NodeId := none

namespace Reader

/-- Calls a reader with the given deliveries until `wanted` bytes from `cursor` on are there, or no
more come.  Gives the bytes and the deliveries that are left. -/
def fill (content : Content) : List Delivery → (cursor wanted : Nat) → Bytes × List Delivery
  | deliveries, _, 0 => ([], deliveries)
  | [], cursor, wanted => (content.slice cursor wanted, [])
  | .interrupted :: rest, cursor, wanted => fill content rest cursor wanted
  | .failed :: rest, _, _ => ([], rest)
  | .atMost count :: rest, cursor, wanted =>
    let part := content.slice cursor (min count wanted)
    if part = [] then ([], rest)
    else
      let (more, left) := fill content rest (cursor + part.length) (wanted - part.length)
      (part ++ more, left)

theorem length_fill_le (content : Content) (deliveries : List Delivery) (cursor wanted : Nat) :
    (fill content deliveries cursor wanted).1.length ≤ wanted := by
  fun_induction fill content deliveries cursor wanted with
  | case1 => simp
  | case2 cursor wanted hne => rw [Content.length_slice]; exact Nat.min_le_left _ _
  | case3 rest cursor wanted hne ih => exact ih
  | case4 => simp
  | case5 => simp
  | case6 count rest cursor wanted hne part hpart more left heq ih =>
    rw [heq] at ih
    have hpart : part.length ≤ wanted := by
      simp only [part, Content.length_slice]; omega
    simp only [List.length_append]
    simp only at ih
    omega

/-- Reads at most `wanted` bytes and moves the cursor behind them. -/
def read (reader : Reader) (wanted : Nat) : Bytes × Reader :=
  let (bytes, left) := fill reader.content reader.deliveries reader.cursor wanted
  (bytes, { reader with cursor := reader.cursor + bytes.length, deliveries := left })

/-- Moves the cursor, unless the position is refused; positions behind the end need not be. -/
def seek (reader : Reader) (position : Nat) : Bool × Reader :=
  if reader.refuses position then (false, reader)
  else (true, { reader with cursor := position })

/-- The first position that the cursor of a file cannot be moved to. -/
def fileSeekLimit : Nat := 0x8000000000000000

/-- A reader over a file of a disk. -/
def ofFile (file : NodeId) (content : Content) : Reader :=
  { content, refuses := (fileSeekLimit ≤ ·), file := some file }

end Reader

/-- A source over a reader. -/
structure Stream where
  /-- The reader, if there is one. -/
  reader : Option Reader
  /-- The size that was measured. -/
  size : Nat
  /-- The path of the file that was opened. -/
  path : Option FilePath

namespace Stream

/-- A stream with nothing behind it. -/
def unavailable (path : Option FilePath) : Stream := ⟨none, 0, path⟩

/-- A stream over a reader.  If its size cannot be measured, there is nothing behind the stream. -/
def ofReader (reader : Reader) : Stream :=
  if reader.endUnreachable then unavailable none
  else
    let size := reader.content.size
    ⟨some { reader with cursor := size }, size, none⟩

/-- A stream over bytes in memory. -/
def ofBytes (bytes : Bytes) : Stream := ofReader { content := .ofBytes bytes }

/-- A stream over the file at a path; without such a file there is nothing behind the stream. -/
def openFile (disk : Disk) (path : FilePath) : Stream :=
  match disk.openFile path with
  | .ok (file, content) => { ofReader (.ofFile file content) with path := some path }
  | .error _ => unavailable (some path)

/-- The base name of the file that was opened. -/
def fileName? (stream : Stream) : Option String :=
  (stream.path.bind FilePath.fileName?).map Utf8.decodeLossy

/-- Reads at most `count` bytes. -/
def read (stream : Stream) (count : Nat) : Bytes × Stream :=
  match stream.reader with
  | none => ([], stream)
  | some reader =>
    let (bytes, reader) := reader.read count
    (bytes, { stream with reader := some reader })

/-- Moves the cursor. -/
def seek (stream : Stream) (position : Nat) : Bool × Stream :=
  match stream.reader with
  | none => (false, stream)
  | some reader =>
    let (moved, reader) := reader.seek position
    (moved, { stream with reader := some reader })

instance : ByteSource Stream where
  read := read
  seek := seek
  size stream := stream.size
  isValid stream := stream.reader.isSome
  length_read_le stream count := by
    unfold read
    split
    · simp
    · exact Reader.length_fill_le _ _ _ _
  size_read stream count := by unfold read; split <;> rfl
  size_seek stream position := by unfold seek; split <;> rfl
  isValid_read stream count := by unfold read; split <;> simp [*]
  isValid_seek stream position := by unfold seek; split <;> simp [*]

/-- The stream after a file of the disk was written: an open file shows what it holds now, but the
measured size stays. -/
def written (stream : Stream) (file : NodeId) (content : Content) : Stream :=
  match stream.reader with
  | some reader =>
    if reader.file = some file then { stream with reader := some { reader with content } }
    else stream
  | none => stream

end Stream

end WadCatalog
