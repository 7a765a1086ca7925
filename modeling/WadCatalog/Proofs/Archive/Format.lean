import WadCatalog.Archive.Table

/-
  The format of archives, and the parser as its decision procedure.

  `Archive.parse` looks at an archive in two steps: it checks the header against the number of bytes
  there are, and it decodes the records of the table.  This module says what an archive is without
  either step, and shows that the parser accepts nothing else and decodes it to nothing else.

  1. **The format** (`WellFormed`) speaks of positions in the byte string and of unbounded integers.
     Next to it stands the list of the ways to violate it (`FirstViolation`), each of which says that
     the conditions before it hold.
  2. **Every byte string is one or the other** (`wellFormed_or_firstViolation`), so it is enough to
     follow the parser in each case once: `parse_of_wellFormed` and `parse_of_firstViolation`.
  3. **The records.**  The table is cut out of the archive and each record out of the table, but a
     range of a range is a range (`Bytes.slice_slice`).  So record `k` holds the sixteen bytes at
     `t + 16 * k`, and all of them are there: reading a record never fails halfway.
-/

namespace WadCatalog.Archive

/-! ## The format -/

/-- The signed number in the four bytes from `position` on. -/
def int32At (bytes : Bytes) (position : Nat) : Int32 :=
  LittleEndian.toInt32 (bytes.slice position 4)

/-- How many lumps the front of an archive announces. -/
def announcedCount (bytes : Bytes) : Int := (int32At bytes 4).toInt

/-- Where the front of an archive places the table. -/
def announcedTable (bytes : Bytes) : Int := (int32At bytes 8).toInt

/-- The entry that the sixteen bytes from `position` on hold. -/
def entryAt (bytes : Bytes) (position : Nat) : LumpEntry :=
  ⟨.ofRaw (bytes.slice (position + 8) 8), int32At bytes position, int32At bytes (position + 4)⟩

/-- A byte string in the format of archives. -/
structure WellFormed (bytes : Bytes) : Prop where
  /-- There is room for a header. -/
  length_ge : 12 ≤ bytes.length
  /-- The bytes start as an archive of some kind does. -/
  magic : ∃ kind : Kind, kind.magic <+: bytes
  /-- At least one lump is announced. -/
  count_ge : 1 ≤ announcedCount bytes
  /-- The table does not start inside the header. -/
  table_ge : 12 ≤ announcedTable bytes
  /-- The table ends inside the bytes. -/
  table_le : announcedTable bytes + 16 * announcedCount bytes ≤ bytes.length

/-- The first condition of the format that a byte string violates, by the rejection it earns. -/
inductive FirstViolation (bytes : Bytes) : Rejection → Prop where
  /-- There is no room for a header. -/
  | length (hlength : bytes.length < 12) : FirstViolation bytes (.tooShort bytes.length)
  /-- The bytes start as no archive does. -/
  | magic (hlength : 12 ≤ bytes.length) (hmagic : ∀ kind : Kind, ¬ kind.magic <+: bytes) :
      FirstViolation bytes (.invalidMagic (bytes.take 4))
  /-- No lump is announced. -/
  | count (hlength : 12 ≤ bytes.length) (hmagic : ∃ kind : Kind, kind.magic <+: bytes)
      (hcount : announcedCount bytes < 1) :
      FirstViolation bytes (.invalidLumpCount (announcedCount bytes))
  /-- The table starts inside the header. -/
  | offset (hlength : 12 ≤ bytes.length) (hmagic : ∃ kind : Kind, kind.magic <+: bytes)
      (hcount : 1 ≤ announcedCount bytes) (htable : announcedTable bytes < 12) :
      FirstViolation bytes (.invalidTableOffset (announcedTable bytes))
  /-- The table ends behind the last byte. -/
  | bounds (hlength : 12 ≤ bytes.length) (hmagic : ∃ kind : Kind, kind.magic <+: bytes)
      (hcount : 1 ≤ announcedCount bytes) (htable : 12 ≤ announcedTable bytes)
      (hend : bytes.length < announcedTable bytes + 16 * announcedCount bytes) :
      FirstViolation bytes (.tableOutOfBounds (announcedTable bytes).toNat
        (16 * announcedCount bytes).toNat bytes.length)

/-- A byte string violates the format somewhere or nowhere. -/
theorem wellFormed_or_firstViolation (bytes : Bytes) :
    WellFormed bytes ∨ ∃ cause, FirstViolation bytes cause := by
  by_cases hlength : 12 ≤ bytes.length
  · by_cases hmagic : ∃ kind : Kind, kind.magic <+: bytes
    · by_cases hcount : 1 ≤ announcedCount bytes
      · by_cases htable : 12 ≤ announcedTable bytes
        · by_cases hend : announcedTable bytes + 16 * announcedCount bytes ≤ bytes.length
          · exact Or.inl ⟨hlength, hmagic, hcount, htable, hend⟩
          · exact Or.inr ⟨_, .bounds hlength hmagic hcount htable (by omega)⟩
        · exact Or.inr ⟨_, .offset hlength hmagic hcount (by omega)⟩
      · exact Or.inr ⟨_, .count hlength hmagic (by omega)⟩
    · exact Or.inr ⟨_, .magic hlength fun kind hkind => hmagic ⟨kind, hkind⟩⟩
  · exact Or.inr ⟨_, .length (by omega)⟩

/-! ## The header of a byte string -/

/-- The magic of an archive is a prefix of four bytes. -/
theorem slice_zero_eq_magic_iff {bytes : Bytes} {kind : Kind} :
    bytes.slice 0 4 = kind.magic ↔ kind.magic <+: bytes := by
  rw [List.prefix_iff_eq_take, Kind.length_magic]
  exact eq_comm

theorem kind?_decode_eq_some_iff {bytes : Bytes} {h : Header.width ≤ bytes.length} {kind : Kind} :
    (Header.decode bytes h).kind? = some kind ↔ kind.magic <+: bytes :=
  Kind.ofMagic?_eq_some_iff.trans slice_zero_eq_magic_iff

theorem kind?_decode_eq_none {bytes : Bytes} {h : Header.width ≤ bytes.length}
    (hmagic : ∀ kind : Kind, ¬ kind.magic <+: bytes) : (Header.decode bytes h).kind? = none := by
  cases hkind : (Header.decode bytes h).kind? with
  | none => rfl
  | some kind => exact absurd (kind?_decode_eq_some_iff.1 hkind) (hmagic kind)

/-! ## Rejected byte strings -/

/-- What is wrong with the header is what is wrong with the archive. -/
theorem parse_of_validate_error {bytes : Bytes} {h : Header.width ≤ bytes.length}
    {cause : Rejection} (hvalidate : (Header.decode bytes h).validate bytes.length = .error cause) :
    parse bytes = .error cause := by
  rw [parse, Header.parse, dif_pos h]
  show ((Header.decode bytes h).validate bytes.length >>= fun _ => _) = _
  rw [hvalidate]
  rfl

/-- The parser rejects a byte string for the first condition it violates. -/
theorem parse_of_firstViolation {bytes : Bytes} {cause : Rejection}
    (h : FirstViolation bytes cause) : parse bytes = .error cause := by
  cases h with
  | length hlength =>
    have hshort : ¬ Header.width ≤ bytes.length := by unfold Header.width; omega
    rw [parse, Header.parse, dif_neg hshort]
    rfl
  | magic hlength hmagic =>
    have hwidth : Header.width ≤ bytes.length := hlength
    apply parse_of_validate_error (h := hwidth)
    rw [Header.validate, kind?_decode_eq_none hmagic]
    rfl
  | count hlength hmagic hcount =>
    have hwidth : Header.width ≤ bytes.length := hlength
    obtain ⟨kind, hkind⟩ := hmagic
    apply parse_of_validate_error (h := hwidth)
    rw [Header.validate, kind?_decode_eq_some_iff.2 hkind]
    exact if_pos hcount
  | offset hlength hmagic hcount htable =>
    have hwidth : Header.width ≤ bytes.length := hlength
    obtain ⟨kind, hkind⟩ := hmagic
    apply parse_of_validate_error (h := hwidth)
    rw [Header.validate, kind?_decode_eq_some_iff.2 hkind]
    exact (if_neg (Int.not_lt.2 hcount)).trans (if_pos htable)
  | bounds hlength hmagic hcount htable hend =>
    have hwidth : Header.width ≤ bytes.length := hlength
    obtain ⟨kind, hkind⟩ := hmagic
    -- neither number is negative here, so cutting them off at zero loses nothing
    have hsize : (Header.decode bytes hwidth).tableLength = (16 * announcedCount bytes).toNat := by
      show (announcedCount bytes).toNat * 16 = _
      omega
    have hbound : (announcedTable bytes).toNat + (16 * announcedCount bytes).toNat >
        bytes.length := by omega
    apply parse_of_validate_error (h := hwidth)
    rw [Header.validate, kind?_decode_eq_some_iff.2 hkind, hsize]
    exact (if_neg (Int.not_lt.2 hcount)).trans
      ((if_neg (Int.not_lt.2 htable)).trans (if_pos hbound))

/-! ## Accepted byte strings -/

/-- Sixteen bytes that are there hold a record, and it gives the entry at their position. -/
theorem parse?_slice_record (bytes : Bytes) (position : Nat) (h : position + 16 ≤ bytes.length) :
    ∃ record, Record.parse? (bytes.slice position 16) = some record ∧
      record.entry = entryAt bytes position := by
  have hwidth : Record.width ≤ (bytes.slice position 16).length :=
    Nat.le_of_eq (Bytes.length_slice_of_le h).symm
  refine ⟨Record.decode (bytes.slice position 16) hwidth, dif_pos hwidth, ?_⟩
  simp only [Record.entry, Record.name, Record.decode, entryAt, int32At]
  rw [Bytes.slice_slice (by decide), Bytes.slice_slice (by decide), Bytes.slice_slice (by decide)]
  rfl

/-- The records of a table inside an archive are the ones the archive holds. -/
theorem get?_of_readTable_slice {bytes : Bytes} {start count : Nat} {directory : LumpDirectory}
    (hinside : start + count * 16 ≤ bytes.length)
    (h : readTable (bytes.slice start (count * 16)) count = .ok directory) {k : Nat}
    (hk : k < count) :
    ∃ record, Record.parse? (bytes.slice (start + 16 * k) 16) = some record ∧
      directory.get? k = some record.entry ∧ record.entry = entryAt bytes (start + 16 * k) := by
  obtain ⟨record, hrecord, hentry⟩ := parse?_slice_record bytes (start + 16 * k) (by omega)
  have hslice : (bytes.slice start (count * 16)).slice (k * 16) 16 =
      bytes.slice (start + 16 * k) 16 := by
    rw [Bytes.slice_slice (by omega), Nat.mul_comm k 16]
  have hget := get?_of_readTable h hk
  rw [show Record.width = 16 from rfl, hslice, hrecord] at hget
  exact ⟨record, hrecord, hget, hentry⟩

/-- The parser accepts a byte string in the format, and its directory holds the records of the
table. -/
theorem parse_of_wellFormed {bytes : Bytes} (h : WellFormed bytes) :
    ∃ kind directory, parse bytes = .ok (kind, directory) ∧ kind.magic <+: bytes ∧
      (directory.length : Int) = announcedCount bytes ∧
      ∀ k < directory.length, ∃ record,
        Record.parse? (bytes.slice ((announcedTable bytes).toNat + 16 * k) 16) = some record ∧
          directory.get? k = some record.entry ∧
          record.entry = entryAt bytes ((announcedTable bytes).toNat + 16 * k) := by
  obtain ⟨hlength, ⟨kind, hkind⟩, hcount, htable, hend⟩ := h
  have hwidth : Header.width ≤ bytes.length := hlength
  have hinside : (announcedTable bytes).toNat + (announcedCount bytes).toNat * 16 ≤
      bytes.length := by omega
  have hvalidate : (Header.decode bytes hwidth).validate bytes.length = .ok kind :=
    Header.validate_eq_ok_iff.2 ⟨kind?_decode_eq_some_iff.2 hkind, hcount, htable, hinside⟩
  have hlong : (announcedCount bytes).toNat * Record.width ≤
      (bytes.slice (announcedTable bytes).toNat ((announcedCount bytes).toNat * 16)).length :=
    Nat.le_of_eq (Bytes.length_slice_of_le hinside).symm
  have hread := readTable_eq_ok hlong
  -- all that is needed of the directory is that it was read from this table
  generalize hdirectory : LumpDirectory.mk _ = directory at hread
  have hsize := length_of_readTable hread
  refine ⟨kind, directory, ?_, hkind, by omega, ?_⟩
  · exact parse_eq_ok_iff.2 ⟨_, dif_pos hwidth, hvalidate, hread⟩
  · intro k hk
    exact get?_of_readTable_slice hinside hread (by omega)

/-- **The parser decides the format.**  It accepts exactly the byte strings in the format and then
gives the kind that the magic tells and one entry for each record, decoded from the record's own
sixteen bytes; otherwise it gives the first condition that is violated.  No table comes out
truncated, and no sum on the way leaves the 64-bit numbers. -/
theorem parse_decides_format (bytes : Bytes) :
    ((∃ result, parse bytes = .ok result) ↔ WellFormed bytes) ∧
    (∀ kind directory, parse bytes = .ok (kind, directory) →
      kind.magic <+: bytes ∧ (directory.length : Int) = announcedCount bytes ∧
        ∀ k < directory.length, ∃ record,
          Record.parse? (bytes.slice ((announcedTable bytes).toNat + 16 * k) 16) = some record ∧
            directory.get? k = some record.entry ∧
            record.entry = entryAt bytes ((announcedTable bytes).toNat + 16 * k)) ∧
    (∀ cause, parse bytes = .error cause ↔ FirstViolation bytes cause) ∧
    (∀ expected actual, parse bytes ≠ .error (.truncatedTable expected actual)) ∧
    (announcedTable bytes).toNat + (16 * announcedCount bytes).toNat < UInt64.size := by
  have hviolation : ∀ cause, parse bytes = .error cause → FirstViolation bytes cause := by
    intro cause hcause
    rcases wellFormed_or_firstViolation bytes with hwell | ⟨first, hfirst⟩
    · obtain ⟨kind, directory, hok, -⟩ := parse_of_wellFormed hwell
      rw [hok] at hcause
      cases hcause
    · rw [parse_of_firstViolation hfirst] at hcause
      cases hcause
      exact hfirst
  have hwellFormed : ∀ result, parse bytes = .ok result → WellFormed bytes := by
    intro result hresult
    rcases wellFormed_or_firstViolation bytes with hwell | ⟨first, hfirst⟩
    · exact hwell
    · rw [parse_of_firstViolation hfirst] at hresult
      cases hresult
  refine ⟨⟨?_, ?_⟩, ?_, ?_, ?_, ?_⟩
  · rintro ⟨result, hresult⟩
    exact hwellFormed result hresult
  · intro hwell
    obtain ⟨kind, directory, hok, -⟩ := parse_of_wellFormed hwell
    exact ⟨_, hok⟩
  · intro kind directory hparse
    obtain ⟨_, _, hok, hdecoded⟩ := parse_of_wellFormed (hwellFormed _ hparse)
    rw [hparse] at hok
    cases hok
    exact hdecoded
  · intro cause
    exact ⟨hviolation cause, parse_of_firstViolation⟩
  · intro expected actual htruncated
    cases hviolation _ htruncated
  · have hcount := (int32At bytes 4).toInt_lt
    have htable := (int32At bytes 8).toInt_lt
    have hsize : UInt64.size = 18446744073709551616 := rfl
    unfold announcedTable announcedCount
    omega

/-- An archive with one lump, whose table has a byte before it and two bytes behind it.  The offset
of the lump is negative, and its name has junk behind the terminator. -/
def looseTable : Bytes :=
  [0x49, 0x57, 0x41, 0x44, 1, 0, 0, 0, 13, 0, 0, 0, 0xee,
    0xff, 0xff, 0xff, 0xff, 5, 0, 0, 0, 0x61, 0x31, 0, 0x6a, 0x75, 0x6e, 0x6b, 0x21, 0xee, 0xee]

theorem parse_decides_format_looseTable :
    WellFormed looseTable ∧ ∃ directory, parse looseTable = .ok (.iwad, directory) ∧
      directory.get? 0 = some ⟨.ofText "A1", -1, 5⟩ := by
  have hwell : WellFormed looseTable :=
    ⟨by decide, ⟨.iwad, by decide⟩, by decide, by decide, by decide⟩
  obtain ⟨haccepts, hdecodes, -⟩ := parse_decides_format looseTable
  obtain ⟨⟨kind, directory⟩, hparse⟩ := haccepts.2 hwell
  obtain ⟨hkind, hlength, hentries⟩ := hdecodes kind directory hparse
  have hone : directory.length = 1 := by
    have hcount : announcedCount looseTable = 1 := by decide
    omega
  obtain ⟨record, -, hget, hentry⟩ := hentries 0 (by omega)
  refine ⟨hwell, directory, ?_, ?_⟩
  · cases kind with
    | iwad => exact hparse
    | pwad => exact absurd hkind (by decide)
  · rw [hget, hentry]
    decide

end WadCatalog.Archive
