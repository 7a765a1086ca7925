import WadCatalog.Archive.Record

/-
  Reading the directory of an archive.

  A directory is read whole or not at all: whatever is wrong with the header or with the bounds of
  the table rejects the archive, and no entry of it is seen.  What the entries say about their lumps
  is not checked here.
-/

namespace WadCatalog.Archive

/-- The directory in the first `count` records of a table, if the table has so many. -/
def readTable (table : Bytes) (count : Nat) : Except Rejection LumpDirectory :=
  if h : count * Record.width ≤ table.length then
    .ok ⟨((Record.decodeTable count table h).map Record.entry).toArray⟩
  else .error (.truncatedTable (count * Record.width) table.length)

/-- The kind and the directory of an archive that lies in memory. -/
def parse (bytes : Bytes) : Except Rejection (Kind × LumpDirectory) := do
  let header ← Header.parse bytes
  let kind ← header.validate bytes.length
  let directory ← readTable (bytes.slice header.tableStart header.tableLength) header.recordCount
  return (kind, directory)

/-- The kind and the directory of an archive, or no kind and no lumps if it is rejected. -/
def parseOrEmpty (bytes : Bytes) : Option Kind × LumpDirectory :=
  match parse bytes with
  | .ok (kind, directory) => (some kind, directory)
  | .error _ => (none, .empty)

/-- A table that is long enough is never rejected. -/
theorem readTable_eq_ok {table : Bytes} {count : Nat} (h : count * Record.width ≤ table.length) :
    readTable table count = .ok ⟨((Record.decodeTable count table h).map Record.entry).toArray⟩ :=
  dif_pos h

/-- A directory has as many entries as records were asked for. -/
theorem length_of_readTable {table : Bytes} {count : Nat} {directory : LumpDirectory}
    (h : readTable table count = .ok directory) : directory.length = count := by
  unfold readTable at h
  split at h
  · cases h
    simp [LumpDirectory.length]
  · cases h

/-- Each entry of a directory is the one that its own record holds. -/
theorem get?_of_readTable {table : Bytes} {count : Nat} {directory : LumpDirectory}
    (h : readTable table count = .ok directory) {k : Nat} (hk : k < count) :
    directory.get? k = (Record.parse? (table.slice (k * Record.width) Record.width)).map (·.entry) := by
  unfold readTable at h
  split at h
  next hlength =>
    cases h
    rw [← Record.getElem?_decodeTable hlength hk]
    simp [LumpDirectory.get?]
  · cases h

/-- An archive in memory is accepted when its header is there and valid, and its table is read. -/
theorem parse_eq_ok_iff {bytes : Bytes} {kind : Kind} {directory : LumpDirectory} :
    parse bytes = .ok (kind, directory) ↔
      ∃ header, Header.parse bytes = .ok header ∧ header.validate bytes.length = .ok kind ∧
        readTable (bytes.slice header.tableStart header.tableLength) header.recordCount =
          .ok directory := by
  constructor
  · intro h
    rw [parse] at h
    cases hheader : Header.parse bytes with
    | error cause => rw [hheader] at h; cases h
    | ok header =>
      rw [hheader] at h
      change (header.validate bytes.length >>= fun _ => _) = _ at h
      cases hvalidate : header.validate bytes.length with
      | error cause => rw [hvalidate] at h; cases h
      | ok found =>
        rw [hvalidate] at h
        change (readTable (bytes.slice header.tableStart header.tableLength) header.recordCount >>=
          fun _ => _) = _ at h
        cases hread : readTable (bytes.slice header.tableStart header.tableLength)
            header.recordCount with
        | error cause => rw [hread] at h; cases h
        | ok read =>
          rw [hread] at h
          cases h
          exact ⟨header, rfl, hvalidate, hread⟩
  · rintro ⟨header, hheader, hvalidate, hread⟩
    rw [parse, hheader]
    show (header.validate bytes.length >>= fun _ => _) = _
    rw [hvalidate]
    show (readTable (bytes.slice header.tableStart header.tableLength) header.recordCount >>=
      fun _ => _) = _
    rw [hread]
    rfl

end WadCatalog.Archive
