import WadCatalog.Archive.Header
import WadCatalog.Lump.Directory

/-
  Records: the lines of an archive's table, sixteen bytes each.

      0   4 bytes   where the lump starts, signed
      4   4 bytes   how long it is, signed
      8   8 bytes   its name

  A table that is long enough gives exactly as many records as were asked for; there is no reading
  half of one.
-/

namespace WadCatalog.Archive

/-- One line of an archive's table. -/
structure Record where
  /-- Where the lump starts. -/
  offset : Int32
  /-- How long the lump is. -/
  length : Int32
  /-- The name as it stands in the table. -/
  rawName : Bytes
  /-- The name takes eight bytes. -/
  length_rawName : rawName.length = 8
  deriving DecidableEq

namespace Record

/-- How many bytes a record takes. -/
def width : Nat := Header.recordWidth

/-- The record in the first sixteen bytes. -/
def decode (bytes : Bytes) (h : width ≤ bytes.length) : Record where
  offset := LittleEndian.toInt32 (bytes.slice 0 4)
  length := LittleEndian.toInt32 (bytes.slice 4 4)
  rawName := bytes.slice 8 8
  length_rawName := Bytes.length_slice_of_le (by unfold width Header.recordWidth at h; omega)

/-- The record in the first bytes, if there are enough of them. -/
def parse? (bytes : Bytes) : Option Record :=
  if h : width ≤ bytes.length then some (decode bytes h) else none

/-- The sixteen bytes of a record. -/
def encode (record : Record) : Bytes :=
  LittleEndian.ofInt32 record.offset ++ LittleEndian.ofInt32 record.length ++ record.rawName

@[simp] theorem length_encode (record : Record) : record.encode.length = 16 := by
  simp [encode, record.length_rawName]

/-- The record of an entry. -/
def ofEntry (entry : LumpEntry) : Record :=
  ⟨entry.offset, entry.length, entry.name.padded, entry.name.length_padded⟩

/-- The name of the lump. -/
def name (record : Record) : LumpName := .ofRaw record.rawName

/-- The entry of a directory that the record gives. -/
def entry (record : Record) : LumpEntry := ⟨record.name, record.offset, record.length⟩

@[simp] theorem entry_ofEntry (entry : LumpEntry) : (ofEntry entry).entry = entry := by
  simp [Record.entry, ofEntry, name]

/-- A record survives being written and read back, whatever follows it. -/
theorem decode_encode_append (record : Record) (rest : Bytes)
    (h : width ≤ (record.encode ++ rest).length) : decode (record.encode ++ rest) h = record := by
  obtain ⟨offset, length, rawName, hname⟩ := record
  simp only [decode, encode, mk.injEq, List.append_assoc]
  refine ⟨?_, ?_, ?_⟩
  · rw [show Bytes.slice _ 0 4 = LittleEndian.ofInt32 offset by simp [Bytes.slice]]
    exact LittleEndian.toInt32_ofInt32 offset
  · rw [show (4 : Nat) = (LittleEndian.ofInt32 offset).length + 0 by simp,
      Bytes.slice_append_right,
      show Bytes.slice _ 0 _ = LittleEndian.ofInt32 length by simp [Bytes.slice]]
    exact LittleEndian.toInt32_ofInt32 length
  · rw [show (8 : Nat) =
        (LittleEndian.ofInt32 offset).length + ((LittleEndian.ofInt32 length).length + 0) by simp,
      Bytes.slice_append_right, Bytes.slice_append_right]
    simp [Bytes.slice, hname]

/-! ## Tables -/

/-- The first `count` records of a table. -/
def decodeTable : (count : Nat) → (table : Bytes) → (h : count * width ≤ table.length) → List Record
  | 0, _, _ => []
  | count + 1, table, h =>
    decode table (by rw [Nat.succ_mul] at h; omega) ::
      decodeTable count (table.drop width) (by rw [Nat.succ_mul] at h; rw [List.length_drop]; omega)

@[simp] theorem length_decodeTable (count : Nat) (table : Bytes) (h : count * width ≤ table.length) :
    (decodeTable count table h).length = count := by
  induction count generalizing table with
  | zero => rfl
  | succ count ih => simp [decodeTable, ih]

/-- Reading a record looks at the first sixteen bytes only. -/
theorem parse?_slice_zero {bytes : Bytes} (h : width ≤ bytes.length) :
    parse? (bytes.slice 0 width) = parse? bytes := by
  have hfront : width ≤ (bytes.slice 0 width).length := by
    exact Nat.le_of_eq (Bytes.length_slice_of_le (by omega)).symm
  rw [parse?, parse?, dif_pos h, dif_pos hfront]
  simp only [decode, Option.some.injEq, mk.injEq]
  refine ⟨?_, ?_, ?_⟩
  · rw [Bytes.slice_slice (by decide)]
  · rw [Bytes.slice_slice (by decide)]
  · rw [Bytes.slice_slice (by decide)]

/-- Each record of a table is the one that its own sixteen bytes hold. -/
theorem getElem?_decodeTable {count : Nat} {table : Bytes} (h : count * width ≤ table.length)
    {k : Nat} (hk : k < count) :
    (decodeTable count table h)[k]? = parse? (table.slice (k * width) width) := by
  induction count generalizing table k with
  | zero => omega
  | succ count ih =>
    have hwidth : width ≤ table.length := by rw [Nat.succ_mul] at h; omega
    cases k with
    | zero =>
      rw [Nat.zero_mul, parse?_slice_zero hwidth, parse?, dif_pos hwidth]
      rfl
    | succ k =>
      have hrest : Bytes.slice (table.drop width) (k * width) width =
          table.slice ((k + 1) * width) width := by
        rw [Bytes.slice, Bytes.slice, List.drop_drop, Nat.succ_mul, Nat.add_comm width]
      rw [decodeTable, List.getElem?_cons_succ, ih _ (by omega), hrest]

/-- The bytes of a table. -/
def encodeTable (records : List Record) : Bytes := records.flatMap encode

@[simp] theorem length_encodeTable (records : List Record) :
    (encodeTable records).length = records.length * width := by
  induction records with
  | nil => simp [encodeTable]
  | cons record rest ih =>
    have hwidth : width = 16 := rfl
    simp only [encodeTable] at ih
    simp only [encodeTable, List.flatMap_cons, List.length_append, length_encode, ih,
      List.length_cons, Nat.succ_mul]
    omega

/-- A table survives being written and read back. -/
theorem decodeTable_encodeTable (records : List Record)
    (h : records.length * width ≤ (encodeTable records).length) :
    decodeTable records.length (encodeTable records) h = records := by
  induction records with
  | nil => rfl
  | cons record rest ih =>
    simp only [List.length_cons, decodeTable, encodeTable, List.flatMap_cons]
    have hdrop : (record.encode ++ List.flatMap encode rest).drop width = encodeTable rest :=
      List.drop_left' (by simp; rfl)
    congr 1
    · exact decode_encode_append record _ _
    · simp only [hdrop]
      exact ih _

end Record

end WadCatalog.Archive
