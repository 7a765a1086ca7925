import WadCatalog.Proofs.ByteSource.Mirror

/-
  What a stream delivers, whatever its reader does.

  A reader may deliver in pieces, may be interrupted, may end early or fail, and it may refuse to
  move its cursor.  Two facts about one read survive all of that, and everything that is proved
  about archives in streams rests on them:

  1. **Nothing else is delivered** (`Reader.isPrefix_fill`): what a read gives is the front of the
     range that was asked for.  The induction is on the deliveries; a piece that comes is the front
     of the range, and what follows is, by the induction hypothesis, the front of the rest.
  2. **Pieces and interruptions lose nothing** (`Reader.fill_eq_slice`): if every delivery makes
     progress or may be asked for again, the whole range comes.

  The second half lifts them to the two kinds of stream that matter.  A stream *over* some bytes
  (`Stream.IsOver`) obeys the first; a *steady* one (`Stream.IsSteady`) obeys the second.  Both
  properties are kept by reading and seeking, hence by everything that is made of the two
  (`ByteSource.IsKept`).
-/

namespace WadCatalog

/-! ## One read of a reader -/

/-- Whether a delivery brings the reader on: it gives bytes, or the call may be repeated. -/
def Delivery.IsProgress : Delivery → Prop
  | .atMost count => 0 < count
  | .interrupted => True
  | .failed => False

namespace Reader

/-- A piece of a range, and the range behind it, make the range. -/
theorem slice_piece_append (content : Content) (cursor : Nat) {count wanted : Nat}
    (h : count ≤ wanted) :
    content.slice cursor count ++
        content.bytes.slice (cursor + (content.slice cursor count).length)
          (wanted - (content.slice cursor count).length) =
      content.bytes.slice cursor wanted := by
  have hself : content.slice cursor count =
      content.bytes.slice cursor (content.slice cursor count).length := by
    rw [Content.slice_eq]
    exact Bytes.eq_slice_of_isPrefix (List.prefix_refl _)
  have hle : (content.slice cursor count).length ≤ wanted := by
    rw [Content.length_slice]
    omega
  generalize (content.slice cursor count).length = piece at hself hle ⊢
  rw [hself, Bytes.slice_append_slice, Nat.add_sub_cancel' hle]

/-- **Nothing else is delivered.**  A read gives the front of the range that was asked for. -/
theorem isPrefix_fill (content : Content) (deliveries : List Delivery) (cursor wanted : Nat) :
    (fill content deliveries cursor wanted).1 <+: content.bytes.slice cursor wanted := by
  fun_induction fill content deliveries cursor wanted with
  | case1 => exact List.nil_prefix
  | case2 cursor wanted hne => exact ⟨[], by rw [List.append_nil, Content.slice_eq]⟩
  | case3 rest cursor wanted hne ih => exact ih
  | case4 => exact List.nil_prefix
  | case5 => exact List.nil_prefix
  | case6 count rest cursor wanted hne part hpart more left heq ih =>
    rw [heq] at ih
    obtain ⟨missing, hmissing⟩ := ih
    refine ⟨missing, ?_⟩
    rw [List.append_assoc, hmissing]
    exact slice_piece_append content cursor (Nat.min_le_right count wanted)

/-- **Pieces and interruptions lose nothing.**  If every delivery makes progress, a read gives all
of the range that is there. -/
theorem fill_eq_slice {content : Content} {deliveries : List Delivery}
    (h : ∀ delivery ∈ deliveries, delivery.IsProgress) (cursor wanted : Nat) :
    (fill content deliveries cursor wanted).1 = content.bytes.slice cursor wanted := by
  fun_induction fill content deliveries cursor wanted with
  | case1 => simp [Bytes.slice]
  | case2 cursor wanted hne => exact Content.slice_eq _ _ _
  | case3 rest cursor wanted hne ih => exact ih fun delivery hmem => h delivery (.tail _ hmem)
  | case4 rest cursor wanted hne => exact (h .failed (.head _)).elim
  | case5 count rest cursor wanted hne part hpart =>
    -- a delivery of at least one byte that brings none has come to the end of the content
    have hcount : 0 < count := h (.atMost count) (.head _)
    have hwanted : wanted ≠ 0 := fun hzero => hne hzero
    have hlength : min (min count wanted) (content.size - cursor) = 0 := by
      rw [← Content.length_slice]
      exact List.length_eq_zero_iff.2 hpart
    have hend : (content.bytes.slice cursor wanted).length = 0 := by
      rw [Bytes.length_slice, Content.length_bytes]
      omega
    exact (List.length_eq_zero_iff.1 hend).symm
  | case6 count rest cursor wanted hne part hpart more left heq ih =>
    have hmore := ih fun delivery hmem => h delivery (.tail _ hmem)
    rw [heq] at hmore
    simp only at hmore ⊢
    rw [hmore]
    exact slice_piece_append content cursor (Nat.min_le_right count wanted)

/-- A read uses deliveries up and adds none. -/
theorem mem_of_mem_fill {content : Content} {deliveries : List Delivery} {cursor wanted : Nat}
    {delivery : Delivery} (h : delivery ∈ (fill content deliveries cursor wanted).2) :
    delivery ∈ deliveries := by
  fun_induction fill content deliveries cursor wanted with
  | case1 => exact h
  | case2 => exact h
  | case3 rest cursor wanted hne ih => exact .tail _ (ih h)
  | case4 => exact .tail _ h
  | case5 => exact .tail _ h
  | case6 count rest cursor wanted hne part hpart more left heq ih =>
    rw [heq] at ih
    exact .tail _ (ih h)

/-- A reader that loses nothing: its deliveries make progress, and its cursor can be moved wherever
that of a file can. -/
structure IsSteady (reader : Reader) : Prop where
  /-- The deliveries bring the reader on. -/
  progress : ∀ delivery ∈ reader.deliveries, delivery.IsProgress
  /-- The cursor can be moved to every position of a file. -/
  accepts : ∀ position < fileSeekLimit, reader.refuses position = false

/-- A seek leaves what is read as it is. -/
theorem content_seek (reader : Reader) (position : Nat) :
    (reader.seek position).2.content = reader.content := by
  unfold seek
  split <;> rfl

theorem IsSteady.read {reader : Reader} (h : reader.IsSteady) (wanted : Nat) :
    (reader.read wanted).2.IsSteady :=
  ⟨fun delivery hmem => h.progress delivery (mem_of_mem_fill hmem), h.accepts⟩

theorem IsSteady.seek {reader : Reader} (h : reader.IsSteady) (position : Nat) :
    (reader.seek position).2.IsSteady := by
  unfold Reader.seek
  split
  · exact h
  · exact ⟨h.progress, h.accepts⟩

end Reader

/-! ## What reading and seeking keep -/

namespace ByteSource

variable {σ : Type} [ByteSource σ]

/-- A property of sources that neither reading nor seeking takes away. -/
structure IsKept (P : σ → Prop) : Prop where
  /-- It is kept by a read. -/
  read : ∀ source count, P source → P (ByteSource.read source count).2
  /-- It is kept by a seek, whether the cursor moves or not. -/
  seek : ∀ source position, P source → P (ByteSource.seek source position).2

theorem IsKept.readAt {P : σ → Prop} (hkept : IsKept P) {source : σ} (h : P source)
    (position count : Nat) : P (ByteSource.readAt source position count).2 := by
  have hseek := hkept.seek source position h
  unfold ByteSource.readAt
  split
  next moved heq =>
    rw [heq] at hseek
    exact hkept.read _ _ hseek
  next moved heq =>
    rw [heq] at hseek
    exact hseek

theorem isKept_size (n : Nat) : IsKept fun source : σ => size source = n where
  read source count h := (size_read source count).trans h
  seek source position h := (size_seek source position).trans h

end ByteSource

/-! ## Streams over some bytes -/

namespace Stream

/-- A stream over the given bytes: there is a reader of them, and their number was measured. -/
structure IsOver (bytes : Bytes) (stream : Stream) : Prop where
  reader : ∃ reader, stream.reader = some reader ∧ reader.content.bytes = bytes
  size : stream.size = bytes.length

/-- A stream over the given bytes that loses none of them. -/
structure IsSteady (bytes : Bytes) (stream : Stream) : Prop where
  reader : ∃ reader, stream.reader = some reader ∧ reader.content.bytes = bytes ∧ reader.IsSteady
  size : stream.size = bytes.length

theorem IsSteady.isOver {bytes : Bytes} {stream : Stream} (h : stream.IsSteady bytes) :
    stream.IsOver bytes := by
  obtain ⟨⟨reader, hreader, hbytes, -⟩, hsize⟩ := h
  exact ⟨⟨reader, hreader, hbytes⟩, hsize⟩

theorem read_eq {stream : Stream} {reader : Reader} (h : stream.reader = some reader)
    (count : Nat) : ByteSource.read stream count =
      ((reader.read count).1, { stream with reader := some (reader.read count).2 }) := by
  show stream.read count = _
  rw [read, h]

theorem seek_eq {stream : Stream} {reader : Reader} (h : stream.reader = some reader)
    (position : Nat) : ByteSource.seek stream position =
      ((reader.seek position).1, { stream with reader := some (reader.seek position).2 }) := by
  show stream.seek position = _
  rw [seek, h]

/-- A stream stays one over the same bytes. -/
theorem isKept_isOver (bytes : Bytes) : ByteSource.IsKept (IsOver bytes) where
  read stream count h := by
    obtain ⟨⟨reader, hreader, hbytes⟩, hsize⟩ := h
    rw [read_eq hreader]
    exact ⟨⟨_, rfl, hbytes⟩, hsize⟩
  seek stream position h := by
    obtain ⟨⟨reader, hreader, hbytes⟩, hsize⟩ := h
    rw [seek_eq hreader]
    refine ⟨⟨_, rfl, ?_⟩, hsize⟩
    rw [Reader.content_seek]
    exact hbytes

theorem isKept_isSteady (bytes : Bytes) : ByteSource.IsKept (IsSteady bytes) where
  read stream count h := by
    obtain ⟨⟨reader, hreader, hbytes, hsteady⟩, hsize⟩ := h
    rw [read_eq hreader]
    exact ⟨⟨_, rfl, hbytes, hsteady.read count⟩, hsize⟩
  seek stream position h := by
    obtain ⟨⟨reader, hreader, hbytes, hsteady⟩, hsize⟩ := h
    rw [seek_eq hreader]
    refine ⟨⟨_, rfl, ?_, hsteady.seek position⟩, hsize⟩
    rw [Reader.content_seek]
    exact hbytes

/-- A read of a range gives the front of it, or nothing if the cursor cannot be moved there. -/
theorem IsOver.isPrefix_readAt {bytes : Bytes} {stream : Stream} (h : stream.IsOver bytes)
    (position count : Nat) :
    (ByteSource.readAt stream position count).1 <+: bytes.slice position count := by
  obtain ⟨⟨reader, hreader, hbytes⟩, -⟩ := h
  rw [ByteSource.readAt, seek_eq hreader, Reader.seek]
  by_cases hrefuses : reader.refuses position = true
  · rw [if_pos hrefuses]
    exact List.nil_prefix
  · rw [if_neg hrefuses]
    show (Reader.fill reader.content reader.deliveries position count).1 <+: _
    rw [← hbytes]
    exact Reader.isPrefix_fill _ _ _ _

/-- A read of a range of a steady stream gives all of it that is there. -/
theorem IsSteady.readAt_eq {bytes : Bytes} {stream : Stream} (h : stream.IsSteady bytes)
    {position : Nat} (hposition : position < Reader.fileSeekLimit) (count : Nat) :
    (ByteSource.readAt stream position count).1 = bytes.slice position count := by
  obtain ⟨⟨reader, hreader, hbytes, hsteady⟩, -⟩ := h
  have haccepts := hsteady.accepts position hposition
  rw [ByteSource.readAt, seek_eq hreader, Reader.seek, haccepts]
  show (Reader.fill reader.content reader.deliveries position count).1 = _
  rw [Reader.fill_eq_slice hsteady.progress, hbytes]

/-- A reader whose end can be reached makes a stream over its bytes. -/
theorem isOver_ofReader {reader : Reader} (h : reader.endUnreachable = false) :
    (ofReader reader).IsOver reader.content.bytes := by
  rw [ofReader, h]
  exact ⟨⟨_, rfl, rfl⟩, (Content.length_bytes _).symm⟩

/-- A steady reader makes a steady stream. -/
theorem isSteady_ofReader {reader : Reader} (h : reader.endUnreachable = false)
    (hsteady : reader.IsSteady) : (ofReader reader).IsSteady reader.content.bytes := by
  rw [ofReader, h]
  exact ⟨⟨_, rfl, rfl, hsteady.progress, hsteady.accepts⟩, (Content.length_bytes _).symm⟩

/-- A stream in memory is steady. -/
theorem isSteady_ofBytes (bytes : Bytes) : (ofBytes bytes).IsSteady bytes := by
  have hreader : Reader.IsSteady { content := .ofBytes bytes } :=
    ⟨fun _ hmem => absurd hmem List.not_mem_nil, fun _ _ => rfl⟩
  have hsteady := isSteady_ofReader rfl hreader
  rw [Content.bytes_ofBytes] at hsteady
  exact hsteady

/-- An open file is a steady stream over what it holds. -/
theorem isSteady_openFile {disk : Disk} {path : FilePath} {file : NodeId} {content : Content}
    (h : disk.openFile path = .ok (file, content)) :
    (openFile disk path).IsSteady content.bytes := by
  have hsteady : (Reader.ofFile file content).IsSteady :=
    ⟨fun _ hmem => absurd hmem List.not_mem_nil, fun position hposition =>
      decide_eq_false (Nat.not_le.2 hposition)⟩
  obtain ⟨hreader, hsize⟩ := isSteady_ofReader rfl hsteady
  rw [openFile, h]
  exact ⟨hreader, hsize⟩

end Stream

/-! ## Streams among other sources -/

namespace AnySource

/-- A source that is a steady stream over the given bytes. -/
def IsSteady (bytes : Bytes) (source : AnySource) : Prop :=
  ∃ stream, source = .stream stream ∧ stream.IsSteady bytes

theorem isKept_isSteady (bytes : Bytes) : ByteSource.IsKept (IsSteady bytes) where
  read source count h := by
    obtain ⟨stream, rfl, hsteady⟩ := h
    exact ⟨_, rfl, (Stream.isKept_isSteady bytes).read stream count hsteady⟩
  seek source position h := by
    obtain ⟨stream, rfl, hsteady⟩ := h
    exact ⟨_, rfl, (Stream.isKept_isSteady bytes).seek stream position hsteady⟩

theorem IsSteady.size_eq {bytes : Bytes} {source : AnySource} (h : source.IsSteady bytes) :
    ByteSource.size source = bytes.length := by
  obtain ⟨stream, rfl, hsteady⟩ := h
  exact hsteady.size

theorem IsSteady.readAt_eq {bytes : Bytes} {source : AnySource} (h : source.IsSteady bytes)
    {position : Nat} (hposition : position < Reader.fileSeekLimit) (count : Nat) :
    (ByteSource.readAt source position count).1 = bytes.slice position count := by
  obtain ⟨stream, rfl, hsteady⟩ := h
  rw [((mirrors_stream stream).readAt position count).1]
  exact hsteady.readAt_eq hposition count

end AnySource

end WadCatalog
