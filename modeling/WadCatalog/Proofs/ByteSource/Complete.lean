import WadCatalog.Proofs.Archive.Streamed

/-
  Sources that hold their bytes.

  A source has a state of its own, and no law of a source says that the next read is as good as the
  last.  So what it means to hold some bytes is said about everything that reading and seeking can
  lead to: a source holds them if it has a property that neither takes away (`IsKept`) and under
  which every seek inside the bytes succeeds and every read inside them is complete (`Delivers`).

  1. **One read** (`Holds.readAt_eq`) of a range inside the bytes gives the range, and **any number
     of reads and seeks** before it make no difference, since holding the bytes is itself kept
     (`isKept_holds`).
  2. **Which sources do** (`Stream.IsSteady.holds`, `AnySource.IsSteady.holds`): the streams that lose
     nothing, over memory and over files.  A source that answers like one that does, does too
     (`Mirrors.holds`).
  3. **An archive that is held is read** (`Holds.readDirectory_eq`), since its header and its table
     lie inside the bytes, and so is each of its lumps (`WadContainer.loadLump_eq_take`).
-/

namespace WadCatalog

namespace ByteSource

variable {σ : Type} [ByteSource σ]

/-! ## Holding some bytes -/

/-- That the sources with some property deliver the given bytes: they have that many, and, as far as
the cursor of a file can be moved, it can be moved inside them and a read from there is complete. -/
structure Delivers (bytes : Bytes) (P : σ → Prop) : Prop extends IsKept P where
  size_eq : ∀ source, P source → size source = bytes.length
  moves : ∀ source position, P source → position ≤ bytes.length →
    position < Reader.fileSeekLimit → (ByteSource.seek source position).1 = true
  gives : ∀ source position count, P source → position + count ≤ bytes.length →
    position < Reader.fileSeekLimit →
      (ByteSource.read (ByteSource.seek source position).2 count).1 = bytes.slice position count

/-- That a source holds the given bytes: it delivers them, however it is read. -/
def Holds (bytes : Bytes) (source : σ) : Prop := ∃ P : σ → Prop, Delivers bytes P ∧ P source

/-- A source goes on holding its bytes. -/
theorem isKept_holds (bytes : Bytes) : IsKept (Holds bytes : σ → Prop) where
  read source count h := by
    obtain ⟨P, hdelivers, hsource⟩ := h
    exact ⟨P, hdelivers, hdelivers.read source count hsource⟩
  seek source position h := by
    obtain ⟨P, hdelivers, hsource⟩ := h
    exact ⟨P, hdelivers, hdelivers.seek source position hsource⟩

section Holds

variable {bytes : Bytes} {source : σ} (h : Holds bytes source)
include h

theorem Holds.size_eq : size source = bytes.length := by
  obtain ⟨P, hdelivers, hsource⟩ := h
  exact hdelivers.size_eq source hsource

/-- The cursor can be moved to a position inside. -/
theorem Holds.seek_eq {position : Nat} (hinside : position ≤ bytes.length)
    (hposition : position < Reader.fileSeekLimit) : (seek source position).1 = true := by
  obtain ⟨P, hdelivers, hsource⟩ := h
  exact hdelivers.moves source position hsource hinside hposition

/-- A read behind such a seek is complete. -/
theorem Holds.read_seek_eq {position count : Nat} (hinside : position + count ≤ bytes.length)
    (hposition : position < Reader.fileSeekLimit) :
    (read (seek source position).2 count).1 = bytes.slice position count := by
  obtain ⟨P, hdelivers, hsource⟩ := h
  exact hdelivers.gives source position count hsource hinside hposition

/-- **One read.**  A read of a range inside the bytes gives the range. -/
theorem Holds.readAt_eq {position count : Nat} (hinside : position + count ≤ bytes.length)
    (hposition : position < Reader.fileSeekLimit) :
    (readAt source position count).1 = bytes.slice position count := by
  have hmoves := h.seek_eq (Nat.le_of_add_right_le hinside) hposition
  have hgives := h.read_seek_eq hinside hposition
  rw [readAt]
  generalize seek source position = outcome at hmoves hgives
  obtain ⟨moved, after⟩ := outcome
  cases hmoves
  exact hgives

end Holds

end ByteSource

/-- The bytes of a lump start where the cursor of a file can be moved to. -/
theorem LumpEntry.position_lt_fileSeekLimit (entry : LumpEntry) :
    entry.position < Reader.fileSeekLimit := by
  have hoffset := entry.offset.toInt_lt
  have hlimit : Reader.fileSeekLimit = 0x8000000000000000 := rfl
  unfold LumpEntry.position
  omega

/-! ## Which sources do -/

/-- A steady stream holds its bytes. -/
theorem Stream.IsSteady.holds {bytes : Bytes} {stream : Stream} (h : stream.IsSteady bytes) :
    ByteSource.Holds bytes stream := by
  refine ⟨Stream.IsSteady bytes, ⟨Stream.isKept_isSteady bytes, ?_, ?_, ?_⟩, h⟩
  · intro source hsource
    exact hsource.size
  · intro source position hsource _ hposition
    obtain ⟨⟨reader, hreader, -, hsteady⟩, -⟩ := hsource
    rw [Stream.seek_eq hreader, Reader.seek, hsteady.accepts position hposition]
    rfl
  · intro source position count hsource _ hposition
    have hread := hsource.readAt_eq hposition count
    obtain ⟨⟨reader, hreader, -, hsteady⟩, -⟩ := hsource
    rw [ByteSource.readAt, Stream.seek_eq hreader, Reader.seek,
      hsteady.accepts position hposition] at hread
    rw [Stream.seek_eq hreader, Reader.seek, hsteady.accepts position hposition]
    exact hread

/-- A source with a size of its own, but no other limits, holds as many bytes as it says it has. -/
theorem CustomSource.holds {source : CustomSource} (hsize : source.size ≤ source.data.length)
    (hseek : source.seekMax = none) (hread : source.readMax = none) :
    ByteSource.Holds (source.data.take source.size) source := by
  let same (other : CustomSource) : Prop := other.data = source.data ∧
    other.size = source.size ∧ other.seekMax = none ∧ other.readMax = none
  have hmoves : ∀ other position, same other →
      other.seek position = (true, { other with cursor := position }) := by
    rintro other position ⟨-, -, hother, -⟩
    rw [seek, hother]
    rfl
  refine ⟨same, ⟨⟨?_, ?_⟩, ?_, ?_, ?_⟩, rfl, rfl, hseek, hread⟩
  · intro other count hother
    exact hother
  · intro other position hother
    show same (other.seek position).2
    rw [hmoves other position hother]
    exact hother
  · intro other hother
    rw [List.length_take_of_le hsize]
    exact hother.2.1
  · intro other position hother _ _
    exact congrArg Prod.fst (hmoves other position hother)
  · intro other position count hother hinside _
    obtain ⟨hdata, -, -, hlimit⟩ := id hother
    rw [List.length_take_of_le hsize] at hinside
    show ((other.seek position).2.read count).1 = _
    rw [hmoves other position hother, read]
    have hslice := @Bytes.slice_slice source.data 0 _ _ _ hinside
    simp only [hdata, hlimit, Option.elim_none]
    rw [Nat.zero_add] at hslice
    exact hslice.symm

/-- An image of a source holds what the source holds. -/
theorem ByteSource.Mirrors.holds {σ τ : Type} [ByteSource σ] [ByteSource τ] {source : σ} {image : τ}
    (h : ByteSource.Mirrors source image) {bytes : Bytes} (hholds : ByteSource.Holds bytes source) :
    ByteSource.Holds bytes image := by
  refine ⟨fun image => ∃ source : σ, ByteSource.Mirrors source image ∧
    ByteSource.Holds bytes source, ⟨⟨?_, ?_⟩, ?_, ?_, ?_⟩, source, h, hholds⟩
  · rintro image count ⟨source, h, hholds⟩
    exact ⟨_, (h.read count).2, (ByteSource.isKept_holds bytes).read source count hholds⟩
  · rintro image position ⟨source, h, hholds⟩
    exact ⟨_, (h.seek position).2, (ByteSource.isKept_holds bytes).seek source position hholds⟩
  · rintro image ⟨source, h, hholds⟩
    exact h.size_eq.trans hholds.size_eq
  · rintro image position ⟨source, h, hholds⟩ hinside hposition
    exact (h.seek position).1.trans (hholds.seek_eq hinside hposition)
  · rintro image position count ⟨source, h, hholds⟩ hinside hposition
    exact ((h.seek position).2.read count).1.trans (hholds.read_seek_eq hinside hposition)

theorem AnySource.IsSteady.holds {bytes : Bytes} {source : AnySource} (h : source.IsSteady bytes) :
    ByteSource.Holds bytes source := by
  obtain ⟨stream, rfl, hsteady⟩ := h
  exact (mirrors_stream stream).holds hsteady.holds

/-! ## An archive that is held -/

/-- **An archive that is held is read.**  Its header and its table lie inside the bytes. -/
theorem ByteSource.Holds.readDirectory_eq {σ : Type} [ByteSource σ] {bytes : Bytes} {source : σ}
    (h : ByteSource.Holds bytes source) (hvalid : ByteSource.isValid source = true)
    {kind : Archive.Kind} {directory : LumpDirectory}
    (hparse : Archive.parse bytes = .ok (kind, directory)) :
    (WadContainer.readDirectory source).1 = .ok (kind, directory) := by
  obtain ⟨header, hheader, hvalidate, hread⟩ := Archive.parse_eq_ok_iff.1 hparse
  have hzero : 0 < Reader.fileSeekLimit := by decide
  have hfront : (ByteSource.readAt source 0 Archive.Header.width).1 =
      bytes.slice 0 Archive.Header.width := by
    refine h.readAt_eq ?_ hzero
    have hlength := Archive.Header.tableStart_add_tableLength_le hvalidate
    have hstart := (Archive.Header.validate_eq_ok_iff.1 hvalidate).2.2.1
    unfold Archive.Header.tableStart at hlength
    omega
  have hmoved := (ByteSource.isKept_holds bytes).readAt h 0 Archive.Header.width
  have hstart : header.tableStart < Reader.fileSeekLimit :=
    Nat.lt_trans header.tableStart_lt (by decide)
  have htable := hmoved.readAt_eq (Archive.Header.tableStart_add_tableLength_le hvalidate) hstart
  refine WadContainer.readDirectory_eq_ok_iff.2 ⟨hvalid, header, ?_, ?_, ?_⟩
  · rw [hfront]
    exact Archive.Header.parse_slice hheader
  · rw [h.size_eq]
    exact hvalidate
  · rw [htable]
    exact hread

/-! ## The lumps of an archive that is held -/

/-- The bytes of a lump, if there is one and it lies inside. -/
def LumpDirectory.bytesOf (directory : LumpDirectory) (bytes : Bytes) (lump : LumpId) : Bytes :=
  match directory.get? lump with
  | some entry =>
    if entry.fitsWithin bytes.length then bytes.slice entry.position entry.size else []
  | none => []

theorem LumpDirectory.bytesOf_of_fits {directory : LumpDirectory} {bytes : Bytes} {lump : LumpId}
    {entry : LumpEntry} (hentry : directory.get? lump = some entry)
    (hfits : entry.fitsWithin bytes.length = true) :
    directory.bytesOf bytes lump = bytes.slice entry.position entry.size := by
  rw [bytesOf, hentry]
  exact if_pos hfits

namespace WadContainer

variable {σ : Type} [ByteSource σ] {bytes : Bytes} {container : WadContainer σ}
  (h : ByteSource.Holds bytes container.source)
include h

/-- A lump has as many bytes as its size says. -/
theorem lumpSize_eq_length (lump : LumpId) :
    container.lumpSize lump = (container.directory.bytesOf bytes lump).length := by
  unfold lumpSize LumpDirectory.bytesOf
  rw [h.size_eq]
  cases container.directory.get? lump with
  | none => rfl
  | some entry =>
    simp only
    split
    next hfits =>
      exact (Bytes.length_slice_of_le (LumpEntry.position_add_size_le hfits)).symm
    next => rfl

/-- **One read.**  A load of a lump gives the front of its bytes, as far as there is room. -/
theorem loadLump_eq_take (lump : LumpId) (room : Nat) :
    (container.loadLump lump room).1 = (container.directory.bytesOf bytes lump).take room := by
  rw [loadLump, lumpSize_eq_length h]
  unfold LumpDirectory.bytesOf
  cases container.directory.get? lump with
  | none => exact List.take_nil.symm
  | some entry =>
    simp only
    by_cases hfits : entry.fitsWithin bytes.length = true
    · have hend := LumpEntry.position_add_size_le hfits
      have hlength := Bytes.length_slice_of_le hend
      rw [if_pos hfits, hlength]
      by_cases hnothing : min room entry.size = 0
      · -- there is no room or no byte
        rw [if_pos hnothing]
        rcases Nat.min_eq_zero_iff.1 hnothing with hroom | hempty
        · rw [hroom, List.take_zero]
        · rw [List.length_eq_zero_iff.1 (hlength.trans hempty), List.take_nil]
      · rw [if_neg hnothing]
        have hread := h.readAt_eq (Nat.le_trans (Nat.add_le_add_left (Nat.min_le_right room _) _)
          hend) entry.position_lt_fileSeekLimit
        exact hread.trans List.take_take.symm
    · rw [if_neg hfits, List.length_nil, Nat.min_zero, List.take_nil]
      rfl

end WadContainer

end WadCatalog
