import WadCatalog.Archive.Rejection
import WadCatalog.Bytes.LittleEndian

/-
  The header of an archive: twelve bytes at its very front.

      0   4 bytes   magic, `IWAD` or `PWAD`
      4   4 bytes   number of lumps, signed
      8   4 bytes   where the table starts, signed

  Reading it and checking it are two steps.  `Header.parse` needs no more than twelve bytes;
  `Header.validate` compares what they say with the size of the whole stream.
-/

namespace WadCatalog.Archive

/-! ## Kinds -/

/-- The two kinds of archive. -/
inductive Kind where
  /-- A complete game. -/
  | iwad
  /-- A patch that is laid over a game. -/
  | pwad
  deriving DecidableEq

namespace Kind

/-- The kind as text. -/
def text : Kind → String
  | iwad => "IWAD"
  | pwad => "PWAD"

/-- The four bytes that an archive of this kind starts with. -/
def magic : Kind → Bytes
  | iwad => [0x49, 0x57, 0x41, 0x44]
  | pwad => [0x50, 0x57, 0x41, 0x44]

/-- The kind of an archive that starts with the given four bytes. -/
def ofMagic? (bytes : Bytes) : Option Kind :=
  if bytes = magic iwad then some iwad
  else if bytes = magic pwad then some pwad
  else none

@[simp] theorem length_magic (kind : Kind) : kind.magic.length = 4 := by cases kind <;> rfl

@[simp] theorem ofMagic?_magic (kind : Kind) : ofMagic? kind.magic = some kind := by
  cases kind <;> decide

/-- No other bytes are taken for a kind. -/
theorem ofMagic?_eq_some_iff {bytes : Bytes} {kind : Kind} :
    ofMagic? bytes = some kind ↔ bytes = kind.magic := by
  constructor
  · intro h
    unfold ofMagic? at h
    split at h
    next heq => cases h; exact heq
    next =>
      split at h
      next heq => cases h; exact heq
      next => cases h
  · rintro rfl; exact ofMagic?_magic kind

end Kind

/-! ## The header -/

/-- What the first bytes of an archive say. -/
structure Header where
  /-- The four bytes that tell the kind. -/
  magic : Bytes
  /-- The number of lumps. -/
  lumpCount : Int32
  /-- Where the table starts. -/
  tableOffset : Int32
  /-- The magic has four bytes. -/
  length_magic : magic.length = 4
  deriving DecidableEq

namespace Header

/-- How many bytes a header takes. -/
def width : Nat := 12

/-- The header of an archive of the given kind. -/
def ofKind (kind : Kind) (lumpCount tableOffset : Int32) : Header :=
  ⟨kind.magic, lumpCount, tableOffset, kind.length_magic⟩

/-- The header in the first bytes of a stream. -/
def decode (bytes : Bytes) (h : width ≤ bytes.length) : Header where
  magic := bytes.slice 0 4
  lumpCount := LittleEndian.toInt32 (bytes.slice 4 4)
  tableOffset := LittleEndian.toInt32 (bytes.slice 8 4)
  length_magic := Bytes.length_slice_of_le (by unfold width at h; omega)

/-- The header of a stream, if the stream is long enough. -/
def parse (bytes : Bytes) : Except Rejection Header :=
  if h : width ≤ bytes.length then .ok (decode bytes h) else .error (.tooShort bytes.length)

/-- The twelve bytes of a header. -/
def encode (header : Header) : Bytes :=
  header.magic ++ LittleEndian.ofInt32 header.lumpCount ++ LittleEndian.ofInt32 header.tableOffset

@[simp] theorem length_encode (header : Header) : header.encode.length = 12 := by
  simp [encode, header.length_magic]

/-- The kind of the archive. -/
def kind? (header : Header) : Option Kind := Kind.ofMagic? header.magic

/-- How many bytes one record of the table takes. -/
def recordWidth : Nat := 16

/-- How many records the table has; a negative count is none. -/
def recordCount (header : Header) : Nat := header.lumpCount.toInt.toNat

/-- How many bytes the table takes. -/
def tableLength (header : Header) : Nat := header.recordCount * recordWidth

/-- Where the table starts; only meaningful for a valid header. -/
def tableStart (header : Header) : Nat := header.tableOffset.toInt.toNat

theorem tableStart_lt (header : Header) : header.tableStart < 0x80000000 := by
  have hlt := header.tableOffset.toInt_lt
  unfold tableStart
  omega

/-- The kind of an archive of `streamSize` bytes with this header, or what is wrong with it. -/
def validate (header : Header) (streamSize : Nat) : Except Rejection Kind :=
  match header.kind? with
  | none => .error (.invalidMagic header.magic)
  | some kind =>
    if header.lumpCount.toInt < 1 then .error (.invalidLumpCount header.lumpCount.toInt)
    else if header.tableOffset.toInt < width then
      .error (.invalidTableOffset header.tableOffset.toInt)
    else if header.tableStart + header.tableLength > streamSize then
      .error (.tableOutOfBounds header.tableStart header.tableLength streamSize)
    else .ok kind

/-- A header is valid when its kind is known, when it announces a lump, and when the table lies
behind it and inside the stream. -/
theorem validate_eq_ok_iff {header : Header} {streamSize : Nat} {kind : Kind} :
    header.validate streamSize = .ok kind ↔
      header.kind? = some kind ∧ 1 ≤ header.lumpCount.toInt ∧
        (width : Int) ≤ header.tableOffset.toInt ∧
        header.tableStart + header.tableLength ≤ streamSize := by
  unfold validate
  constructor
  · intro h
    split at h
    · cases h
    next found hkind =>
      split at h
      · cases h
      · split at h
        · cases h
        · split at h
          · cases h
          · cases h
            exact ⟨hkind, by omega, by omega, by omega⟩
  · rintro ⟨hkind, hcount, hoffset, hinside⟩
    rw [hkind]
    simp only
    rw [if_neg (by omega), if_neg (by omega), if_neg (by omega)]

/-- The table that a valid header speaks of lies inside the stream. -/
theorem tableStart_add_tableLength_le {header : Header} {streamSize : Nat} {kind : Kind}
    (h : header.validate streamSize = .ok kind) :
    header.tableStart + header.tableLength ≤ streamSize :=
  (validate_eq_ok_iff.1 h).2.2.2

/-- A header survives being written and read back. -/
theorem parse_encode_append (header : Header) (rest : Bytes) :
    parse (header.encode ++ rest) = .ok header := by
  obtain ⟨magic, lumpCount, tableOffset, hmagic⟩ := header
  have hlen : width ≤ (encode ⟨magic, lumpCount, tableOffset, hmagic⟩ ++ rest).length := by
    rw [List.length_append, length_encode]; unfold width; omega
  have hmagicSlice :
      (magic ++ (LittleEndian.ofInt32 lumpCount ++
        (LittleEndian.ofInt32 tableOffset ++ rest))).slice 0 4 = magic := by
    simp [Bytes.slice, ← hmagic]
  have hcountSlice :
      (magic ++ (LittleEndian.ofInt32 lumpCount ++
        (LittleEndian.ofInt32 tableOffset ++ rest))).slice 4 4 =
      LittleEndian.ofInt32 lumpCount := by
    rw [show (4 : Nat) = magic.length + 0 by omega, Bytes.slice_append_right]
    simp [Bytes.slice, hmagic]
  have hoffsetSlice :
      (magic ++ (LittleEndian.ofInt32 lumpCount ++
        (LittleEndian.ofInt32 tableOffset ++ rest))).slice 8 4 =
      LittleEndian.ofInt32 tableOffset := by
    rw [show (8 : Nat) = magic.length + ((LittleEndian.ofInt32 lumpCount).length + 0) by simp [hmagic],
      Bytes.slice_append_right, Bytes.slice_append_right]
    simp [Bytes.slice]
  rw [parse, dif_pos hlen]
  simp only [decode, encode, List.append_assoc, hmagicSlice, hcountSlice, hoffsetSlice,
    LittleEndian.toInt32_ofInt32]

end Header

end WadCatalog.Archive
