import WadCatalog.Archive.Table

/-
  Writing archives.

  An archive is laid out as its header, the data of its lumps one after another, and the table.  A
  builder collects the lumps in order.  Besides lumps with data it takes bare records, which may
  point anywhere and bring no data of their own.

  Numbers are written with thirty-two bits, so an archive in which a position, a length or the
  number of lumps reaches `2 ^ 31` comes out with wrapped numbers.
-/

namespace WadCatalog.Archive

/-- A lump that waits to be written. -/
inductive PendingLump where
  /-- A lump with data, which is placed behind the data of the lumps before it. -/
  | holding (name : LumpName) (data : Bytes)
  /-- A record that is written as given, without data. -/
  | bare (entry : LumpEntry)
  deriving DecidableEq

/-- The bytes a lump adds to the data of the archive. -/
def PendingLump.data : PendingLump → Bytes
  | holding _ data => data
  | bare _ => []

/-- The entry of a lump whose data starts at `position`. -/
def PendingLump.entry (position : Nat) : PendingLump → LumpEntry
  | holding name data => ⟨name, Int32.ofNat position, Int32.ofNat data.length⟩
  | bare entry => entry

/-- An archive that is being put together. -/
structure Builder where
  /-- The kind of archive. -/
  kind : Kind
  /-- The lumps in order. -/
  lumps : List PendingLump
  deriving DecidableEq

namespace Builder

/-- An archive without lumps. -/
def empty (kind : Kind) : Builder := ⟨kind, []⟩

/-- One more lump at the end. -/
def add (builder : Builder) (lump : PendingLump) : Builder :=
  { builder with lumps := builder.lumps ++ [lump] }

/-- One more lump with data. -/
def addLump (builder : Builder) (name : String) (data : Bytes) : Builder :=
  builder.add (.holding (.ofText name) data)

/-- One more lump without data, as a marker is. -/
def addMarker (builder : Builder) (name : String) : Builder := builder.addLump name []

/-- One more record with a range of its own choice. -/
def addRecord (builder : Builder) (name : String) (offset length : Int32) : Builder :=
  builder.add (.bare ⟨.ofText name, offset, length⟩)

/-- How many lumps there are. -/
def length (builder : Builder) : Nat := builder.lumps.length

/-- The data of all lumps, one after another. -/
def body (builder : Builder) : Bytes := builder.lumps.flatMap PendingLump.data

/-- The entries of lumps whose data starts at `position`. -/
def entriesFrom : (position : Nat) → List PendingLump → List LumpEntry
  | _, [] => []
  | position, lump :: rest => lump.entry position :: entriesFrom (position + lump.data.length) rest

/-- The entries of all lumps. -/
def entries (builder : Builder) : List LumpEntry := entriesFrom Header.width builder.lumps

/-- The header of the archive. -/
def header (builder : Builder) : Header :=
  .ofKind builder.kind (Int32.ofNat builder.length)
    (Int32.ofNat (Header.width + builder.body.length))

/-- The bytes of the archive. -/
def build (builder : Builder) : Bytes :=
  builder.header.encode ++ builder.body ++ Record.encodeTable (builder.entries.map Record.ofEntry)

@[simp] theorem length_entriesFrom (position : Nat) (lumps : List PendingLump) :
    (entriesFrom position lumps).length = lumps.length := by
  induction lumps generalizing position with
  | nil => rfl
  | cons lump rest ih => simp [entriesFrom, ih]

/-- The length of an archive is known from its lumps. -/
theorem length_build (builder : Builder) :
    builder.build.length = 12 + builder.body.length + builder.length * 16 := by
  simp [build, entries, length, Record.width, Header.recordWidth, Nat.add_assoc]

end Builder

end WadCatalog.Archive
