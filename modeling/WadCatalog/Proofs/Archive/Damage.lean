import WadCatalog.Proofs.Archive.Streamed
import WadCatalog.Placement

/-
  Archives that are cut short, and archives with something behind them.

  The header of an archive says where the table ends, and no byte behind that place is looked at.  So
  that place is all that counts when bytes are missing or added:

  1. **More bytes** (`parse_append`).  Each step of the parser that accepts some bytes accepts them
     with anything behind them, and means the same.
  2. **Fewer bytes** (`parse_take`).  A front that reaches the end of the table is an archive by
     itself, and the bytes that were cut off are more bytes behind it.  A shorter front still has the
     same header, so what is wrong with it is the end of the table, or that there is no header.
  3. **The lumps.**  Whether one lies inside depends on the size alone, and grows with it.
-/

namespace WadCatalog.Archive

/-! ## More bytes -/

/-- **More bytes behind an archive change nothing.** -/
theorem parse_append {bytes : Bytes} {kind : Kind} {directory : LumpDirectory}
    (h : parse bytes = .ok (kind, directory)) (more : Bytes) :
    parse (bytes ++ more) = .ok (kind, directory) := by
  obtain ⟨header, hheader, hvalidate, hread⟩ := parse_eq_ok_iff.1 h
  have hinside := Header.tableStart_add_tableLength_le hvalidate
  obtain ⟨hkind, hcount, htable, -⟩ := Header.validate_eq_ok_iff.1 hvalidate
  have hend : header.tableStart + header.tableLength ≤ (bytes ++ more).length := by
    rw [List.length_append]
    omega
  refine parse_eq_ok_iff.2 ⟨header, ?_, ?_, ?_⟩
  · exact Header.parse_of_isPrefix (List.prefix_append bytes more) hheader
  · exact Header.validate_eq_ok_iff.2 ⟨hkind, hcount, htable, hend⟩
  · rw [Bytes.slice_append_left hinside]
    exact hread

/-! ## Fewer bytes -/

/-- What the parser accepts is in the format. -/
theorem wellFormed_of_parse {bytes : Bytes} {result : Kind × LumpDirectory}
    (h : parse bytes = .ok result) : WellFormed bytes := by
  rcases wellFormed_or_firstViolation bytes with hwell | ⟨cause, hcause⟩
  · exact hwell
  · rw [parse_of_firstViolation hcause] at h
    cases h

/-- A directory has as many entries as the header announces. -/
theorem length_of_parse {bytes : Bytes} {kind : Kind} {directory : LumpDirectory}
    (h : parse bytes = .ok (kind, directory)) : (directory.length : Int) = announcedCount bytes := by
  obtain ⟨_, _, hparse, -, hlength, -⟩ := parse_of_wellFormed (wellFormed_of_parse h)
  rw [h] at hparse
  cases hparse
  exact hlength

/-- A front holds the numbers that lie inside it. -/
theorem int32At_take {bytes : Bytes} {position size : Nat} (h : position + 4 ≤ size) :
    int32At (bytes.take size) position = int32At bytes position := by
  have hslice : (bytes.slice 0 size).slice position 4 = bytes.slice (0 + position) 4 :=
    Bytes.slice_slice h
  rw [Nat.zero_add] at hslice
  exact congrArg LittleEndian.toInt32 hslice

/-- A front with a header announces what the whole archive does. -/
theorem announced_take (bytes : Bytes) {size : Nat} (h : 12 ≤ size) :
    announcedCount (bytes.take size) = announcedCount bytes ∧
      announcedTable (bytes.take size) = announcedTable bytes := by
  unfold announcedCount announcedTable
  rw [int32At_take (by omega), int32At_take (by omega)]
  exact ⟨rfl, rfl⟩

/-- A front with a header is of the kind that the whole archive is of. -/
theorem exists_magic_take {bytes : Bytes} {size : Nat} (h : 12 ≤ size)
    (hmagic : ∃ kind : Kind, kind.magic <+: bytes) :
    ∃ kind : Kind, kind.magic <+: bytes.take size := by
  obtain ⟨kind, hkind⟩ := hmagic
  refine ⟨kind, List.prefix_take_iff.2 ⟨hkind, ?_⟩⟩
  rw [Kind.length_magic]
  omega

/-- **An archive that is cut short** gives its whole directory, or none at all. -/
theorem parse_take {bytes : Bytes} {kind : Kind} {directory : LumpDirectory}
    (h : parse bytes = .ok (kind, directory)) {size : Nat} (hsize : size ≤ bytes.length) :
    parse (bytes.take size) =
      if (announcedTable bytes).toNat + 16 * directory.length ≤ size then .ok (kind, directory)
      else if size < 12 then .error (.tooShort size)
      else .error (.tableOutOfBounds (announcedTable bytes).toNat (16 * directory.length) size) := by
  obtain ⟨-, hmagic, hcount, htable, hend⟩ := wellFormed_of_parse h
  have hentries := length_of_parse h
  have hfront : (bytes.take size).length = size := by
    rw [List.length_take]
    omega
  by_cases hheader : size < 12
  · -- the table starts behind the header, so it does not end before the header does
    have hlength : (bytes.take size).length < 12 := by omega
    have hshort := parse_of_firstViolation (.length hlength)
    rw [if_neg (by omega), if_pos hheader, hshort, hfront]
  · obtain ⟨hcount', htable'⟩ := announced_take bytes (Nat.le_of_not_lt hheader)
    have hmagic' := exists_magic_take (Nat.le_of_not_lt hheader) hmagic
    by_cases hinside : (announcedTable bytes).toNat + 16 * directory.length ≤ size
    · have hwell : WellFormed (bytes.take size) :=
        ⟨by omega, hmagic', by omega, by omega, by omega⟩
      obtain ⟨kind', directory', hparse, -⟩ := parse_of_wellFormed hwell
      -- with the rest put back it is the archive again
      have hagain := parse_append hparse (bytes.drop size)
      rw [List.take_append_drop, h] at hagain
      rw [if_pos hinside, hparse, ← hagain]
    · have hlong : 12 ≤ (bytes.take size).length := by omega
      have hbounds := parse_of_firstViolation
        (.bounds hlong hmagic' (by omega) (by omega) (by omega))
      have hlength : (16 * announcedCount bytes).toNat = 16 * directory.length := by omega
      rw [if_neg hinside, if_neg hheader, hbounds, hcount', htable', hlength, hfront]

/-! ## The lumps -/

/-- All that is known of the lumps of an archive before any of them is read. -/
structure Outline where
  /-- The kind of archive. -/
  kind : Kind
  /-- The lumps. -/
  directory : LumpDirectory
  /-- The ranges between the markers. -/
  markers : MarkerTable
  /-- The namespace of each lump by maps and markers, if it has one. -/
  spaces : List (Option Namespace)

/-- What the bytes of an archive tell of its lumps. -/
def outline (bytes : Bytes) : Except Rejection Outline :=
  (parse bytes).map fun (kind, directory) =>
    { kind, directory, markers := .build directory
      spaces := Placer.placeAll directory (.build directory) .start directory.ids }

/-- The bytes of a lump that lies inside are the same with more bytes behind the archive. -/
theorem slice_append_of_fits {bytes : Bytes} {entry : LumpEntry}
    (h : entry.fitsWithin bytes.length = true) (more : Bytes) :
    (bytes ++ more).slice entry.position entry.size = bytes.slice entry.position entry.size :=
  Bytes.slice_append_left (LumpEntry.position_add_size_le h)

/-- **Damage is all or nothing.**  Let an archive be accepted.  Any front of it gives the same kind and
directory if the table ends inside it; otherwise it is rejected, for its length if there is no
room for a header and for the bounds of the table if there is.  And with anything behind it the archive
gives the same kind, directory, ranges and namespaces, every lump that lay inside still does and has
the same bytes, and the longer it gets the more lumps lie inside. -/
theorem damage_is_all_or_nothing {bytes : Bytes} {kind : Kind} {directory : LumpDirectory}
    (h : parse bytes = .ok (kind, directory)) :
    (∀ size ≤ bytes.length, parse (bytes.take size) =
      if (announcedTable bytes).toNat + 16 * directory.length ≤ size then .ok (kind, directory)
      else if size < 12 then .error (.tooShort size)
      else .error (.tableOutOfBounds (announcedTable bytes).toNat (16 * directory.length) size)) ∧
    (∀ more, parse (bytes ++ more) = .ok (kind, directory) ∧
      outline (bytes ++ more) = outline bytes ∧
      ∀ id entry, directory.get? id = some entry → entry.fitsWithin bytes.length = true →
        entry.fitsWithin (bytes ++ more).length = true ∧
        (bytes ++ more).slice entry.position entry.size =
          bytes.slice entry.position entry.size) ∧
    ∀ small large, small ≤ large → directory.countWithin small ≤ directory.countWithin large := by
  refine ⟨?_, ?_, ?_⟩
  · intro size hsize
    exact parse_take h hsize
  · intro more
    have hmore := parse_append h more
    refine ⟨hmore, ?_, ?_⟩
    · rw [outline, outline, hmore, h]
    · intro id entry _ hfits
      refine ⟨LumpEntry.fitsWithin_mono ?_ hfits, slice_append_of_fits hfits more⟩
      rw [List.length_append]
      exact Nat.le_add_right _ _
  · intro small large hle
    exact directory.countWithin_mono hle

/-- The archive with a byte before its table and two bytes behind it: the two can be missing, and any
further byte cannot. -/
theorem damage_is_all_or_nothing_looseTable : ∃ directory,
    parse looseTable = .ok (.iwad, directory) ∧
    parse (looseTable.take 29) = .ok (.iwad, directory) ∧
    parse (looseTable.take 28) = .error (.tableOutOfBounds 13 16 28) ∧
    parse (looseTable.take 11) = .error (.tooShort 11) ∧
    parse (looseTable ++ looseTable) = .ok (.iwad, directory) := by
  have hparse : parse looseTable = .ok (.iwad, ⟨#[⟨.ofText "A1", -1, 5⟩]⟩) := by rfl
  obtain ⟨hfront, hmore, -⟩ := damage_is_all_or_nothing hparse
  exact ⟨_, hparse, hfront 29 (by decide), hfront 28 (by decide), hfront 11 (by decide),
    (hmore looseTable).1⟩

end WadCatalog.Archive
