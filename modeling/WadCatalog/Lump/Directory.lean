import WadCatalog.Lump.Name
import WadCatalog.Text.Columns

/-
  Directories of lumps.

  An archive lists its lumps in a table, and a lump is known by its place in that table, its
  **lump id**.  An entry says where the bytes of the lump are, as two signed numbers that nobody has
  checked: they may be negative or point past the end of the archive.  Whether an entry can be
  served therefore depends on the size of the stream (`LumpEntry.fitsWithin`), and the entries that
  cannot are skipped later on without disturbing the ids of the others.
-/

namespace WadCatalog

/-- The place of a lump in its directory. -/
abbrev LumpId := Nat

namespace LumpId

/-- A lump id as text, with at least five digits. -/
def text (id : LumpId) : String := Text.alignRight 5 (toString id) '0'

end LumpId

/-! ## Entries -/

/-- A named range of bytes of an archive. -/
structure LumpEntry where
  /-- The name of the lump. -/
  name : LumpName
  /-- Where its bytes start. -/
  offset : Int32
  /-- How many bytes it has. -/
  length : Int32
  deriving DecidableEq

namespace LumpEntry

/-- Where the bytes start in a stream; a negative offset counts as zero. -/
def position (entry : LumpEntry) : Nat := entry.offset.toInt.toNat

/-- How many bytes there are to read; a negative length counts as zero. -/
def size (entry : LumpEntry) : Nat := entry.length.toInt.toNat

/-- Whether the bytes lie inside a stream of `streamSize` bytes. -/
def fitsWithin (entry : LumpEntry) (streamSize : Nat) : Bool :=
  decide (0 ≤ entry.offset.toInt ∧ 0 ≤ entry.length.toInt ∧
    entry.offset.toInt + entry.length.toInt ≤ streamSize)

/-- An entry that fits has its range inside the stream. -/
theorem position_add_size_le {entry : LumpEntry} {streamSize : Nat}
    (h : entry.fitsWithin streamSize = true) : entry.position + entry.size ≤ streamSize := by
  obtain ⟨hoffset, hlength, hend⟩ := of_decide_eq_true h
  unfold position size
  omega

/-- A stream that grows loses no entry. -/
theorem fitsWithin_mono {entry : LumpEntry} {small large : Nat} (hle : small ≤ large)
    (h : entry.fitsWithin small = true) : entry.fitsWithin large = true := by
  obtain ⟨hoffset, hlength, hend⟩ := of_decide_eq_true h
  exact decide_eq_true ⟨hoffset, hlength, by omega⟩

end LumpEntry

/-! ## Directories -/

/-- The lumps of an archive in the order of its table. -/
structure LumpDirectory where
  /-- The entries; the lump id is the index. -/
  entries : Array LumpEntry
  deriving DecidableEq

namespace LumpDirectory

/-- The directory without lumps. -/
def empty : LumpDirectory := ⟨#[]⟩

/-- How many entries there are. -/
def length (directory : LumpDirectory) : Nat := directory.entries.size

/-- The directory with one more entry, and the id of that entry. -/
def push (directory : LumpDirectory) (entry : LumpEntry) : LumpId × LumpDirectory :=
  (directory.length, ⟨directory.entries.push entry⟩)

/-- The entry with the given id. -/
def get? (directory : LumpDirectory) (id : LumpId) : Option LumpEntry := directory.entries[id]?

/-- The name of the entry with the given id. -/
def name? (directory : LumpDirectory) (id : LumpId) : Option LumpName :=
  (directory.get? id).map (·.name)

/-- Whether the id belongs to an entry. -/
def contains (directory : LumpDirectory) (id : LumpId) : Bool := decide (id < directory.length)

/-- The ids in ascending order. -/
def ids (directory : LumpDirectory) : List LumpId := List.range directory.length

/-- The names in the order of the table. -/
def names (directory : LumpDirectory) : List LumpName := directory.entries.toList.map (·.name)

/-- The entries with their ids, in the order of the table. -/
def indexed (directory : LumpDirectory) : List (LumpEntry × LumpId) :=
  directory.entries.toList.zipIdx

/-- The last entry of the given name: a later lump replaces an earlier one of the same name. -/
def find? (directory : LumpDirectory) (name : LumpName) : Option LumpId :=
  directory.ids.reverse.find? fun id => directory.name? id = some name

/-- How many entries lie inside a stream of `streamSize` bytes. -/
def countWithin (directory : LumpDirectory) (streamSize : Nat) : Nat :=
  directory.entries.toList.countP (·.fitsWithin streamSize)

/-- A stream that grows holds no fewer lumps. -/
theorem countWithin_mono (directory : LumpDirectory) {small large : Nat} (hle : small ≤ large) :
    directory.countWithin small ≤ directory.countWithin large :=
  List.countP_mono_left fun _ _ h => LumpEntry.fitsWithin_mono hle h

example : LumpId.text 42 = "00042" := by decide
example : LumpId.text 1234567 = "1234567" := by decide
example : (⟨.ofText "A", 10, 5⟩ : LumpEntry).fitsWithin 15 = true := by decide
example : (⟨.ofText "A", -1, 5⟩ : LumpEntry).fitsWithin 15 = false := by decide

end LumpDirectory

end WadCatalog
