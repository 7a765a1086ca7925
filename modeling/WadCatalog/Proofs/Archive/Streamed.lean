import WadCatalog.Container.Wad
import WadCatalog.Proofs.Archive.Format
import WadCatalog.Proofs.ByteSource.Delivery

/-
  Reading an archive out of a stream.

  The directory of an archive is read in two ways.  `Archive.parse` has all bytes at hand and cuts
  the header and the table out of them; `WadContainer.readDirectory` has a stream, of which it reads
  the header and then the table, and either read may come back short.  This module shows that the
  second way never finds anything that the first does not.

  1. **Three steps** (`Archive.parse_eq_ok_iff`, `readDirectory_eq_ok_iff`).  Both ways parse a
     header, validate it against a size and read the table it speaks of; they differ in the bytes
     they do it with.
  2. **A front is enough or refused** (`Header.parse_of_isPrefix`, `readTable_of_isPrefix`).  A header
     or table that is accepted is accepted with more bytes behind it, and means the same.  A stream
     delivers fronts of the ranges asked for, so each of the three steps carries over.  A seek that
     fails leaves the empty front; a reader refuses by position, and as the two seeks go to
     different positions, every way for them to fail is one of its refusals.
  3. **All or nothing** (`ofSource_of_error`, `register_of_empty`).  A container over a source that
     cannot be read holds nothing, and registering it leaves every registry as it is.
-/

namespace WadCatalog

namespace Archive

/-! ## A front is enough or refused -/

/-- A header that is read from the front of some bytes is their header. -/
theorem Header.parse_of_isPrefix {front bytes : Bytes} {header : Header} (hbegins : front <+: bytes)
    (h : Header.parse front = .ok header) : Header.parse bytes = .ok header := by
  obtain ⟨back, rfl⟩ := hbegins
  by_cases hfront : width ≤ front.length
  · have hwidth : width = 12 := rfl
    have hbytes : width ≤ (front ++ back).length := by rw [List.length_append]; omega
    rw [Header.parse, dif_pos hfront] at h
    rw [Header.parse, dif_pos hbytes, ← h]
    simp only [decode, Except.ok.injEq, Header.mk.injEq]
    refine ⟨?_, ?_, ?_⟩
    · exact Bytes.slice_append_left (by omega)
    · rw [Bytes.slice_append_left (by omega)]
    · rw [Bytes.slice_append_left (by omega)]
  · rw [Header.parse, dif_neg hfront] at h
    cases h

/-- The header of some bytes can be read from the twelve bytes in front. -/
theorem Header.parse_slice {bytes : Bytes} {header : Header}
    (h : Header.parse bytes = .ok header) :
    Header.parse (bytes.slice 0 Header.width) = .ok header := by
  by_cases hbytes : Header.width ≤ bytes.length
  · -- the front has a header, and it cannot be another one than that of all bytes
    have hfront : Header.width ≤ (bytes.slice 0 Header.width).length :=
      Nat.le_of_eq (Bytes.length_slice_of_le (by omega)).symm
    have hparse : Header.parse (bytes.slice 0 Header.width) = .ok (Header.decode _ hfront) :=
      dif_pos hfront
    have hagain := Header.parse_of_isPrefix (List.take_prefix Header.width bytes) hparse
    rw [h] at hagain
    cases hagain
    exact hparse
  · rw [Header.parse, dif_neg hbytes] at h
    cases h

/-- The records in the front of a table are the records of the table. -/
theorem Record.decodeTable_append {count : Nat} {front : Bytes} (back : Bytes)
    (h : count * Record.width ≤ front.length)
    (hlong : count * Record.width ≤ (front ++ back).length) :
    Record.decodeTable count (front ++ back) hlong = Record.decodeTable count front h := by
  apply List.ext_getElem?
  intro k
  rcases Nat.lt_or_ge k count with hk | hk
  · have hinside : k * Record.width + Record.width ≤ front.length := by
      rw [← Nat.succ_mul]
      exact Nat.le_trans (Nat.mul_le_mul_right _ hk) h
    rw [Record.getElem?_decodeTable hlong hk, Record.getElem?_decodeTable h hk,
      Bytes.slice_append_left hinside]
  · rw [List.getElem?_eq_none (by rw [Record.length_decodeTable]; exact hk),
      List.getElem?_eq_none (by rw [Record.length_decodeTable]; exact hk)]

/-- A directory that is read from the front of a table is the directory of the table. -/
theorem readTable_of_isPrefix {front table : Bytes} {count : Nat} {directory : LumpDirectory}
    (hbegins : front <+: table) (h : readTable front count = .ok directory) :
    readTable table count = .ok directory := by
  obtain ⟨back, rfl⟩ := hbegins
  by_cases hfront : count * Record.width ≤ front.length
  · have hlong : count * Record.width ≤ (front ++ back).length := by
      rw [List.length_append]
      omega
    rw [readTable_eq_ok hfront] at h
    rw [readTable_eq_ok hlong, Record.decodeTable_append back hfront hlong]
    exact h
  · rw [readTable, dif_neg hfront] at h
    cases h

end Archive

namespace WadContainer

variable {σ : Type} [ByteSource σ]

/-! ## Three steps -/

/-- An archive in a source is accepted when its header is read and valid, and its table is read. -/
theorem readDirectory_eq_ok_iff {source : σ} {kind : Archive.Kind} {directory : LumpDirectory} :
    (readDirectory source).1 = .ok (kind, directory) ↔
      ByteSource.isValid source = true ∧
        ∃ header, Archive.Header.parse (ByteSource.readAt source 0 Archive.Header.width).1 =
            .ok header ∧
          header.validate (ByteSource.size source) = .ok kind ∧
          Archive.readTable
              (ByteSource.readAt (ByteSource.readAt source 0 Archive.Header.width).2
                header.tableStart header.tableLength).1 header.recordCount = .ok directory := by
  have hsize := ByteSource.size_readAt source 0 Archive.Header.width
  unfold readDirectory
  by_cases hvalid : ByteSource.isValid source = true
  · rw [if_pos hvalid]
    simp only [hsize]
    cases hheader : Archive.Header.parse (ByteSource.readAt source 0 Archive.Header.width).1 with
    | error cause => simp
    | ok header =>
      cases hvalidate : header.validate (ByteSource.size source) with
      | error cause => simp [hvalidate]
      | ok found =>
        cases hread : Archive.readTable
            (ByteSource.readAt (ByteSource.readAt source 0 Archive.Header.width).2
              header.tableStart header.tableLength).1 header.recordCount with
        | error cause => simp [hvalidate, hread]
        | ok read => simp [hvalidate, hread, hvalid]
  · rw [if_neg hvalid]
    simp [hvalid]

/-- What is read from a stream is what its bytes hold. -/
theorem parse_of_readDirectory {bytes : Bytes} {stream : Stream} (hover : stream.IsOver bytes)
    {kind : Archive.Kind} {directory : LumpDirectory}
    (h : (readDirectory stream).1 = .ok (kind, directory)) :
    Archive.parse bytes = .ok (kind, directory) := by
  obtain ⟨-, header, hheader, hvalidate, hread⟩ := readDirectory_eq_ok_iff.1 h
  have hfront : (ByteSource.readAt stream 0 Archive.Header.width).1 <+: bytes :=
    (hover.isPrefix_readAt 0 _).trans (List.take_prefix _ _)
  have hmoved := (Stream.isKept_isOver bytes).readAt hover 0 Archive.Header.width
  have htable := hmoved.isPrefix_readAt header.tableStart header.tableLength
  have hsize : ByteSource.size stream = bytes.length := hover.size
  rw [hsize] at hvalidate
  exact Archive.parse_eq_ok_iff.2 ⟨header, Archive.Header.parse_of_isPrefix hfront hheader,
    hvalidate, Archive.readTable_of_isPrefix htable hread⟩

/-- What its bytes hold is read from a steady stream. -/
theorem readDirectory_of_parse {bytes : Bytes} {stream : Stream} (hsteady : stream.IsSteady bytes)
    {kind : Archive.Kind} {directory : LumpDirectory}
    (h : Archive.parse bytes = .ok (kind, directory)) :
    (readDirectory stream).1 = .ok (kind, directory) := by
  obtain ⟨header, hheader, hvalidate, hread⟩ := Archive.parse_eq_ok_iff.1 h
  -- both positions are below what a signed number of 64 bits can hold
  have hzero : 0 < Reader.fileSeekLimit := by decide
  have hfront := hsteady.readAt_eq hzero Archive.Header.width
  have hmoved := (Stream.isKept_isSteady bytes).readAt hsteady 0 Archive.Header.width
  have hstart : header.tableStart < Reader.fileSeekLimit :=
    Nat.lt_trans header.tableStart_lt (by decide)
  have htable := hmoved.readAt_eq hstart header.tableLength
  have hvalid : ByteSource.isValid stream = true := by
    obtain ⟨⟨reader, hreader, -⟩, -⟩ := hsteady
    show stream.reader.isSome = true
    rw [hreader]
    rfl
  have hsize : ByteSource.size stream = bytes.length := hsteady.size
  refine readDirectory_eq_ok_iff.2 ⟨hvalid, header, ?_, ?_, ?_⟩
  · rw [hfront]
    exact Archive.Header.parse_slice hheader
  · rw [hsize]
    exact hvalidate
  · rw [htable]
    exact hread

/-! ## All or nothing -/

/-- A container over a source that cannot be read holds nothing. -/
theorem ofSource_of_error {source : σ} {failure : Failure}
    (h : (readDirectory source).1 = .error failure) (id : ContainerId) :
    ofSource source id =
      { id, path := none, source := (readDirectory source).2, kind := none, directory := .empty
        markers := .empty, lookup := .empty, count := 0 } := by
  unfold ofSource
  generalize readDirectory source = outcome at h ⊢
  obtain ⟨result, moved⟩ := outcome
  cases h
  rfl

/-- Registering a container without lumps files nothing and announces nothing. -/
theorem register_of_empty {ρ : Type} [Registry ρ] (context : OpenContext) (registry : ρ)
    {container : WadContainer σ} (h : container.directory = .empty) :
    container.register context registry = ([], container, registry) := by
  obtain ⟨id, path, source, kind, directory, markers, lookup, count⟩ := container
  cases h
  rfl

/-- **The stream refines the bytes.**  Over any reader, whatever its deliveries and whichever seeks
it refuses, what is read is exactly what the parser finds in the bytes.  A reader that only delivers
in pieces or is interrupted, and whose cursor can always be moved, reads all that the parser finds.
And when the archive is not read, the container has no kind, no lumps and no markers, and
registering it neither shows a lump to the classifier nor announces one. -/
theorem readDirectory_refines_parse (reader : Reader) (id : ContainerId) :
    (∀ kind directory, (readDirectory (Stream.ofReader reader)).1 = .ok (kind, directory) →
      Archive.parse reader.content.bytes = .ok (kind, directory)) ∧
    (reader.endUnreachable = false → (∀ position, reader.refuses position = false) →
      (∀ delivery ∈ reader.deliveries, delivery.IsProgress) →
        ∀ kind directory, Archive.parse reader.content.bytes = .ok (kind, directory) →
          (readDirectory (Stream.ofReader reader)).1 = .ok (kind, directory)) ∧
    (∀ failure, (readDirectory (Stream.ofReader reader)).1 = .error failure →
      ∃ container, ofSource (Stream.ofReader reader) id = container ∧ container.kind = none ∧
        container.directory = .empty ∧ container.markers = .empty ∧ container.count = 0 ∧
        ∀ (ρ : Type) [Registry ρ] (context : OpenContext) (registry : ρ),
          container.register context registry = ([], container, registry)) := by
  refine ⟨?_, ?_, ?_⟩
  · intro kind directory h
    -- without an end the size cannot be measured, and there is no stream to read from
    cases hend : reader.endUnreachable with
    | false => exact parse_of_readDirectory (Stream.isOver_ofReader hend) h
    | true =>
      rw [Stream.ofReader, hend] at h
      cases h
  · intro hend haccepts hprogress kind directory h
    have hsteady : reader.IsSteady := ⟨hprogress, fun position _ => haccepts position⟩
    exact readDirectory_of_parse (Stream.isSteady_ofReader hend hsteady) h
  · intro failure h
    have hcontainer := ofSource_of_error h id
    refine ⟨_, rfl, ?_⟩
    rw [hcontainer]
    refine ⟨rfl, rfl, rfl, rfl, ?_⟩
    intro ρ _ context registry
    exact register_of_empty context registry rfl

/-- A reader that delivers an archive in pieces. -/
def piecewise : Reader :=
  { content := .ofBytes Archive.looseTable, deliveries := [.atMost 5, .interrupted, .atMost 1] }

/-- A reader that ends three bytes into the table of an archive. -/
def cutShort : Reader :=
  { content := .ofBytes Archive.looseTable, deliveries := [.atMost 12, .atMost 3, .atMost 0] }

theorem readDirectory_refines_parse_in_pieces :
    (∃ directory, Archive.parse Archive.looseTable = .ok (.iwad, directory) ∧
      (readDirectory (Stream.ofReader piecewise)).1 = .ok (.iwad, directory)) ∧
    (readDirectory (Stream.ofReader cutShort)).1 = .error (.rejected (.truncatedTable 16 3)) ∧
    (ofSource (Stream.ofReader cutShort) ⟨7⟩).directory = .empty := by
  have hbytes : piecewise.content.bytes = Archive.looseTable := Content.bytes_ofBytes _
  have hparse : Archive.parse piecewise.content.bytes =
      .ok (.iwad, ⟨#[⟨.ofText "A1", -1, 5⟩]⟩) := by rfl
  have hprogress : ∀ delivery ∈ piecewise.deliveries, delivery.IsProgress := by
    simp [piecewise, Delivery.IsProgress]
  have hread := (readDirectory_refines_parse piecewise ⟨7⟩).2.1 rfl (fun _ => rfl) hprogress _ _ hparse
  have hagain := (readDirectory_refines_parse piecewise ⟨7⟩).1 _ _ hread
  have hcut : (readDirectory (Stream.ofReader cutShort)).1 =
      .error (.rejected (.truncatedTable 16 3)) := by rfl
  obtain ⟨container, hcontainer, -, hempty, -⟩ :=
    (readDirectory_refines_parse cutShort ⟨7⟩).2.2 _ hcut
  rw [hbytes] at hagain
  refine ⟨⟨_, hagain, hread⟩, hcut, ?_⟩
  rw [hcontainer]
  exact hempty

end WadContainer

end WadCatalog
