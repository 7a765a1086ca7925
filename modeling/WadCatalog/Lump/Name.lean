import WadCatalog.Text.Ascii
import WadCatalog.Text.Utf8
import WadCatalog.Text.Quoted

/-
  Names of lumps.

  A lump has a name of at most eight bytes.  Archives are careless with it: the name may use any
  case, may or may not end in a zero byte, and may have anything behind that zero byte.  So every
  name is brought into one canonical form as soon as it is read (`ofRaw`): cut at eight bytes and at
  the first zero byte, with ASCII letters in upper case.

  A `LumpName` holds the bytes of the canonical form *without* padding and the proof that they are
  canonical.  Two names are then equal exactly when their bytes are, and the eight bytes an archive
  holds (`padded`) are computed from them.
-/

namespace WadCatalog

/-- The canonical name of a lump. -/
structure LumpName where
  /-- The bytes of the name, without padding. -/
  trimmed : Bytes
  /-- A name has at most eight bytes. -/
  length_le : trimmed.length ≤ 8
  /-- No byte is the terminator or a lower-case ASCII letter. -/
  canonical : ∀ byte ∈ trimmed, byte ≠ 0 ∧ Ascii.upperByte byte = byte
  deriving DecidableEq

namespace LumpName

/-- How many bytes a name takes in an archive. -/
def width : Nat := 8

/-! ## The canonical form -/

/-- What counts of a raw name: its first eight bytes, up to the first zero byte. -/
def cut (raw : Bytes) : Bytes := (raw.take width).takeWhile (· != 0)

theorem length_cut_le (raw : Bytes) : (cut raw).length ≤ width :=
  Nat.le_trans (List.takeWhile_sublist _).length_le (List.length_take_le _ _)

theorem ne_zero_of_mem_cut {raw : Bytes} {byte : UInt8} (h : byte ∈ cut raw) : byte ≠ 0 := by
  simpa using List.all_eq_true.1 List.all_takeWhile byte h

/-- The canonical form of a raw name. -/
def ofRaw (raw : Bytes) : LumpName where
  trimmed := (cut raw).map Ascii.upperByte
  length_le := by rw [List.length_map]; exact length_cut_le raw
  canonical := by
    intro byte h
    obtain ⟨source, hsource, rfl⟩ := List.mem_map.1 h
    refine ⟨?_, Ascii.upperByte_upperByte source⟩
    intro hzero
    exact ne_zero_of_mem_cut hsource ((Ascii.upperByte_eq_zero_iff source).1 hzero)

/-- The canonical form of a name given as text. -/
def ofText (text : String) : LumpName := ofRaw (Utf8.encode text)

/-- The eight bytes an archive holds: the name, then zero bytes. -/
def padded (name : LumpName) : Bytes :=
  name.trimmed ++ List.replicate (width - name.trimmed.length) 0

@[simp] theorem length_padded (name : LumpName) : name.padded.length = 8 := by
  have := name.length_le
  simp [padded, width]
  omega

@[ext] theorem ext {a b : LumpName} (h : a.trimmed = b.trimmed) : a = b := by
  cases a; cases b; cases h; rfl

theorem not_isLower_of_mem {name : LumpName} {byte : UInt8} (h : byte ∈ name.trimmed) :
    ¬ Ascii.IsLower byte :=
  Ascii.upperByte_eq_self_iff.1 (name.canonical byte h).2

/-- The bytes of a canonical name are cut nowhere, with or without padding behind them. -/
theorem cut_trimmed_append (name : LumpName) (count : Nat) :
    cut (name.trimmed ++ List.replicate count 0) = name.trimmed := by
  have hle : name.trimmed.length ≤ width := name.length_le
  have hne : ∀ byte ∈ name.trimmed, (byte != 0) = true := fun byte h => by
    simpa using (name.canonical byte h).1
  unfold cut
  rw [List.take_append, List.take_of_length_le hle, List.takeWhile_append_of_pos hne,
    List.take_replicate]
  cases min (width - name.trimmed.length) count <;> simp [List.replicate_succ]

theorem map_upperByte_trimmed (name : LumpName) :
    name.trimmed.map Ascii.upperByte = name.trimmed := by
  conv => rhs; rw [← List.map_id name.trimmed]
  exact List.map_congr_left fun byte h => (name.canonical byte h).2

/-- The eight bytes of an archive give the name back. -/
@[simp] theorem ofRaw_padded (name : LumpName) : ofRaw name.padded = name := by
  apply LumpName.ext
  show (cut name.padded).map Ascii.upperByte = name.trimmed
  rw [padded, cut_trimmed_append, map_upperByte_trimmed]

/-- So do the bytes without padding. -/
@[simp] theorem ofRaw_trimmed (name : LumpName) : ofRaw name.trimmed = name := by
  apply LumpName.ext
  show (cut name.trimmed).map Ascii.upperByte = name.trimmed
  have h := name.cut_trimmed_append 0
  rw [List.replicate_zero, List.append_nil] at h
  rw [h, map_upperByte_trimmed]

/-! ## Order -/

/-- Names are ordered by the eight bytes an archive holds. -/
instance : Ord LumpName := ⟨fun a b => compare a.padded b.padded⟩

/-! ## Text -/

/-- The name as text, with a replacement character for each ill-formed place. -/
def text (name : LumpName) : String := Utf8.decodeLossy name.trimmed

/-- Whether nothing is left of the name. -/
def isEmpty (name : LumpName) : Bool := name.trimmed.isEmpty

/-- The name for a diagnostic, with its text quoted. -/
def diagnostic (name : LumpName) : String := "LumpName(" ++ Text.quoted name.text ++ ")"

/-! ## Lumps of a map -/

/-- The names kept for the lumps that hold the data of a map. -/
def mapLumpNames : List String :=
  ["THINGS", "LINEDEFS", "SIDEDEFS", "VERTEXES", "SEGS", "SSECTORS", "NODES", "SECTORS", "REJECT",
    "BLOCKMAP", "BEHAVIOR"]

/-- Whether a text is one of the names kept for the data of a map, in any case. -/
def isMapLumpText (text : String) : Bool :=
  mapLumpNames.any (Ascii.equalIgnoringCase · text)

/-- Whether a lump of this name holds data of a map. -/
def isMapLump (name : LumpName) : Bool := isMapLumpText name.text

/-! ## Examples -/

example : (ofText "verylongname").text = "VERYLONG" := by decide
example : (ofRaw [0x41, 0x42, 0x43, 0x00, 0x6a]).trimmed = [0x41, 0x42, 0x43] := by decide
example : (ofText "a").padded = [0x41, 0, 0, 0, 0, 0, 0, 0] := by decide
example : (ofText "behavior").isMapLump = true := by decide
example : (ofText "MAP01").isMapLump = false := by decide

end LumpName

end WadCatalog
