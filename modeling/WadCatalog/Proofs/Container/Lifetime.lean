import WadCatalog.Proofs.ByteSource.Complete
import WadCatalog.Proofs.Container.Reads

/-
  The life of an open container.

  Once it is open, a container is asked things, and files that it has open may be written.  Neither
  changes anything but the source behind it (`Container.Moved`):

  1. **Asking** takes the source on by reads and seeks (`moved_after`), so whatever these keep, the
     source still has (`Leads`).  In particular a source that holds its bytes goes on holding them.
  2. **Writing** puts other bytes behind the source; it still has the size that was measured and is
     as valid as it was (`moved_written`).

  Both steps are taken along a whole life by induction on the events.  Whatever they are, the
  extent of the source stays (`moved_afterAll`), and what a container says about its resources
  depends on no more than that, so it stays as it was when the container was opened
  (`Moved.sizeOf_eq` and its neighbours).  If what is written is nothing new for the container, its
  source is led on as if there had been questions only (`moved_afterAll_of_isSpared`).  The
  induction needs that a write which changes nothing now would change nothing later
  (`Moved.written_eq_self`), since neither reading nor seeking changes which file a stream shows.
-/

namespace WadCatalog

/-! ## Changes of a source -/

/-- How one source may come from another. -/
abbrev SourceChange := (σ : Type) → [ByteSource σ] → σ → σ → Prop

namespace ByteSource

/-- A source that is led on by reads and seeks: it has every property that neither takes away. -/
def Leads : SourceChange := fun σ _ source later =>
  ∀ P : σ → Prop, IsKept P → P source → P later

/-- A source that says it has as many bytes, and is as valid. -/
def SameExtent : SourceChange := fun _ _ source later =>
  size later = size source ∧ isValid later = isValid source

variable {σ : Type} [ByteSource σ]

theorem Leads.refl (source : σ) : Leads σ source source := fun _ _ h => h

theorem Leads.trans {source middle later : σ} (hfirst : Leads σ source middle)
    (hsecond : Leads σ middle later) : Leads σ source later :=
  fun P hkept h => hsecond P hkept (hfirst P hkept h)

theorem leads_readAt (source : σ) (position count : Nat) :
    Leads σ source (readAt source position count).2 :=
  fun _ hkept h => hkept.readAt h position count

theorem isKept_isValid (valid : Bool) : IsKept fun source : σ => isValid source = valid where
  read source count h := (isValid_read source count).trans h
  seek source position h := (isValid_seek source position).trans h

/-- Reads and seeks leave the extent of a source as it is. -/
theorem Leads.sameExtent {source later : σ} (h : Leads σ source later) :
    SameExtent σ source later :=
  ⟨h _ (isKept_size (size source)) rfl, h _ (isKept_isValid (isValid source)) rfl⟩

/-- A source that holds its bytes is led to sources that do. -/
theorem Leads.holds {source later : σ} (h : Leads σ source later) {bytes : Bytes}
    (hholds : Holds bytes source) : Holds bytes later :=
  h _ (isKept_holds bytes) hholds

theorem SameExtent.refl (source : σ) : SameExtent σ source source := ⟨rfl, rfl⟩

theorem SameExtent.trans {source middle later : σ} (hfirst : SameExtent σ source middle)
    (hsecond : SameExtent σ middle later) : SameExtent σ source later :=
  ⟨hsecond.1.trans hfirst.1, hsecond.2.trans hfirst.2⟩

end ByteSource

/-- Reading an archive leads its source on. -/
theorem WadContainer.leads_ofSource {σ : Type} [ByteSource σ] (source : σ) (id : ContainerId) :
    ByteSource.Leads σ source (ofSource source id).source :=
  fun _ hkept h => hkept.readDirectory h

/-- So does registering its lumps. -/
theorem WadContainer.leads_register {σ ρ : Type} [ByteSource σ] [Registry ρ]
    (context : OpenContext) (registry : ρ) (container : WadContainer σ) :
    ByteSource.Leads σ container.source (container.register context registry).2.1.source :=
  fun _ hkept h => hkept.fileLumps context container.directory container.markers
    container.directory.indexed .start h

/-- Writing a file leaves the extent of every stream as it is. -/
theorem Stream.sameExtent_written (stream : Stream) (file : NodeId) (content : Content) :
    ByteSource.SameExtent Stream stream (stream.written file content) := by
  unfold written
  cases hreader : stream.reader with
  | none => exact .refl stream
  | some reader =>
    simp only
    split
    · exact ⟨rfl, by show true = stream.reader.isSome; rw [hreader]; rfl⟩
    · exact .refl stream

theorem AnySource.sameExtent_written (source : AnySource) (file : NodeId) (content : Content) :
    ByteSource.SameExtent AnySource source (source.written file content) := by
  cases source with
  | stream inner => exact inner.sameExtent_written file content
  | custom inner => exact .refl (σ := AnySource) _
  | boxed inner => exact .refl (σ := AnySource) _

namespace Container

/-! ## Changes of a container -/

/-- A container that is another one but for a change of the source behind it. -/
inductive Moved (change : SourceChange) : Container → Container → Prop where
  | looseFile (file : LooseFile) {stream : Stream} (h : change Stream file.stream stream) :
    Moved change (looseFile file) (looseFile { file with stream })
  | wad (archive : WadContainer AnySource) {source : AnySource}
    (h : change AnySource archive.source source) :
    Moved change (wad archive) (wad { archive with source })
  | mapWad (map : MapWadContainer AnySource) {source : AnySource}
    (h : change AnySource map.wad.source source) :
    Moved change (mapWad map) (mapWad { map with wad := { map.wad with source } })
  | tree (files : TreeContainer) : Moved change (tree files) (tree files)

/-- A change of a kind that is no change at all may be one. -/
theorem Moved.refl {change : SourceChange}
    (h : ∀ (σ : Type) [ByteSource σ] (source : σ), change σ source source)
    (container : Container) : Moved change container container := by
  cases container with
  | looseFile file => exact .looseFile file (h _ file.stream)
  | wad archive => exact .wad archive (h _ archive.source)
  | mapWad map => exact .mapWad map (h _ map.wad.source)
  | tree files => exact .tree files

/-- One change after another. -/
theorem Moved.trans {change : SourceChange}
    (h : ∀ (σ : Type) [ByteSource σ] (source middle later : σ),
      change σ source middle → change σ middle later → change σ source later)
    {first middle last : Container} (hfirst : Moved change first middle)
    (hsecond : Moved change middle last) : Moved change first last := by
  cases hfirst with
  | looseFile file hone =>
    cases hsecond with
    | looseFile _ htwo => exact .looseFile file (h _ _ _ _ hone htwo)
  | wad archive hone =>
    cases hsecond with
    | wad _ htwo => exact .wad archive (h _ _ _ _ hone htwo)
  | mapWad map hone =>
    cases hsecond with
    | mapWad _ htwo => exact .mapWad map (h _ _ _ _ hone htwo)
  | tree files => exact hsecond

/-- A lesser change for a greater one. -/
theorem Moved.mono {change wider : SourceChange}
    (h : ∀ (σ : Type) [ByteSource σ] (source later : σ),
      change σ source later → wider σ source later)
    {container later : Container} (hmoved : Moved change container later) :
    Moved wider container later := by
  cases hmoved with
  | looseFile file hone => exact .looseFile file (h _ _ _ hone)
  | wad archive hone => exact .wad archive (h _ _ _ hone)
  | mapWad map hone => exact .mapWad map (h _ _ _ hone)
  | tree files => exact .tree files

/-! ## One event -/

/-- What happens to a container while it is open. -/
inductive Event where
  /-- It is asked something, while the disk is the given one. -/
  | asked (disk : Disk) (call : Call)
  /-- A file of the disk is written. -/
  | written (file : NodeId) (content : Content)

/-- The container after something happened. -/
def afterEvent (container : Container) : Event → Container
  | .asked disk call => container.after disk call
  | .written file content => container.written file content

/-- The container after several things happened, one after another. -/
def afterAll (container : Container) (events : List Event) : Container :=
  events.foldl afterEvent container

end Container

/-- Loading a lump leads the source of an archive on. -/
theorem WadContainer.exists_leads_loadLump {σ : Type} [ByteSource σ] (archive : WadContainer σ)
    (lump : LumpId) (room : Nat) :
    ∃ source, (archive.loadLump lump room).2 = { archive with source } ∧
      ByteSource.Leads σ archive.source source := by
  unfold loadLump
  cases archive.directory.get? lump with
  | none => exact ⟨_, rfl, .refl _⟩
  | some entry =>
    simp only
    split
    · exact ⟨_, rfl, .refl _⟩
    · exact ⟨_, rfl, ByteSource.leads_readAt _ _ _⟩

/-- So does loading a resource. -/
theorem WadContainer.exists_leads_load {σ : Type} [ByteSource σ] (archive : WadContainer σ)
    (resource : ResourceId) (room : Nat) :
    ∃ source, (archive.load resource room).2 = { archive with source } ∧
      ByteSource.Leads σ archive.source source := by
  unfold load
  split
  · exact archive.exists_leads_loadLump _ room
  · exact ⟨_, rfl, .refl _⟩

/-- Loading a file leads its stream on. -/
theorem LooseFile.exists_leads_load (file : LooseFile) (resource : ResourceId) (room : Nat) :
    ∃ stream, (file.load resource room).2 = { file with stream } ∧
      ByteSource.Leads Stream file.stream stream := by
  unfold load
  simp only
  split
  · exact ⟨_, rfl, .refl _⟩
  · exact ⟨_, rfl, ByteSource.leads_readAt _ _ _⟩

namespace Container

/-- Loading from a container leads its source on. -/
theorem moved_load (disk : Disk) (container : Container) (resource : ResourceId) (room : Nat) :
    Moved ByteSource.Leads container (container.load disk resource room).2 := by
  cases container with
  | looseFile file =>
    obtain ⟨stream, hload, hleads⟩ := file.exists_leads_load resource room
    show Moved _ _ (looseFile (file.load resource room).2)
    rw [hload]
    exact .looseFile file hleads
  | wad archive =>
    obtain ⟨source, hload, hleads⟩ := archive.exists_leads_load resource room
    show Moved _ _ (wad (archive.load resource room).2)
    rw [hload]
    exact .wad archive hleads
  | mapWad map =>
    obtain ⟨source, hload, hleads⟩ := map.wad.exists_leads_load resource room
    show Moved _ _ (mapWad { map with wad := (map.wad.load resource room).2 })
    rw [hload]
    exact .mapWad map hleads
  | tree files => exact .tree files

/-- **Asking.**  A container that is asked has its source led on. -/
theorem moved_after (disk : Disk) (container : Container) (call : Call) :
    Moved ByteSource.Leads container (container.after disk call) := by
  have hsame : Moved ByteSource.Leads container container := .refl (fun _ _ => .refl) container
  cases call with
  | sizeOf resource => exact hsame
  | load resource buffer => exact moved_load disk container resource buffer.length
  | loadAll resource => exact moved_load disk container resource _
  | loadLump lump buffer =>
    cases container with
    | looseFile file => exact hsame
    | tree files => exact hsame
    | wad archive =>
      obtain ⟨source, hload, hleads⟩ := archive.exists_leads_loadLump lump buffer.length
      show Moved _ _ (wad (archive.loadLump lump buffer.length).2)
      rw [hload]
      exact .wad archive hleads
    | mapWad map =>
      obtain ⟨source, hload, hleads⟩ := map.wad.exists_leads_loadLump lump buffer.length
      show Moved _ _ (mapWad { map with wad := (map.wad.loadLump lump buffer.length).2 })
      rw [hload]
      exact .mapWad map hleads

/-- **Writing.**  A container keeps the extent of its source when a file is written. -/
theorem moved_written (container : Container) (file : NodeId) (content : Content) :
    Moved ByteSource.SameExtent container (container.written file content) := by
  cases container with
  | looseFile loose => exact .looseFile loose (loose.stream.sameExtent_written file content)
  | wad archive => exact .wad archive (archive.source.sameExtent_written file content)
  | mapWad map => exact .mapWad map (map.wad.source.sameExtent_written file content)
  | tree files => exact .tree files

/-- **One event.**  Whatever happens to a container, its source keeps its extent. -/
theorem moved_afterEvent (container : Container) (event : Event) :
    Moved ByteSource.SameExtent container (container.afterEvent event) := by
  cases event with
  | asked disk call =>
    exact (moved_after disk container call).mono fun _ _ _ _ h => h.sameExtent
  | written file content => exact moved_written container file content

/-! ## A whole life -/

/-- **A whole life.**  So it does however much happens. -/
theorem moved_afterAll (events : List Event) (container : Container) :
    Moved ByteSource.SameExtent container (container.afterAll events) := by
  induction events generalizing container with
  | nil => exact .refl (fun _ _ => .refl) container
  | cons event rest ih =>
    exact (moved_afterEvent container event).trans (fun _ _ _ _ _ => .trans) (ih _)

end Container

/-! ## A life without a change of the bytes -/

namespace Stream

/-- The file that a stream has open, and what the stream shows of it. -/
def showing? (stream : Stream) : Option (NodeId × Content) :=
  stream.reader.bind fun reader => reader.file.map (·, reader.content)

/-- Reading and seeking do not change what a stream shows. -/
theorem isKept_showing (shown : Option (NodeId × Content)) :
    ByteSource.IsKept fun stream : Stream => stream.showing? = shown where
  read stream count h := by
    obtain ⟨reader, size, path⟩ := stream
    cases reader with
    | none => exact h
    | some reader => exact h
  seek stream position h := by
    obtain ⟨reader, size, path⟩ := stream
    cases reader with
    | none => exact h
    | some reader =>
      show (reader.seek position).2.file.map (·, (reader.seek position).2.content) = shown
      rw [Reader.content_seek]
      unfold Reader.seek
      split <;> exact h

/-- Writing a file leaves a stream as it is if the stream does not show the file, or shows just
that. -/
theorem written_eq_self_iff {stream : Stream} {file : NodeId} {content : Content} :
    stream.written file content = stream ↔
      ∀ shown, stream.showing? = some (file, shown) → shown = content := by
  obtain ⟨reader, size, path⟩ := stream
  cases reader with
  | none => simp [written, showing?]
  | some reader =>
    by_cases hfile : reader.file = some file
    · have hwritten : written ⟨some reader, size, path⟩ file content =
          ⟨some { reader with content }, size, path⟩ := if_pos hfile
      have hshowing : showing? ⟨some reader, size, path⟩ = some (file, reader.content) := by
        show reader.file.map _ = _
        rw [hfile]
        rfl
      rw [hwritten, hshowing]
      constructor
      · intro h shown hshown
        cases hshown
        injection h with hreader
        exact (congrArg Reader.content (Option.some.inj hreader)).symm
      · intro h
        cases h reader.content rfl
        rfl
    · have hwritten : written ⟨some reader, size, path⟩ file content =
          ⟨some reader, size, path⟩ := if_neg hfile
      refine iff_of_true hwritten ?_
      intro shown hshown
      obtain ⟨found, hfound, heq⟩ := Option.map_eq_some_iff.1 hshown
      cases heq
      exact absurd hfound hfile

/-- A stream that a write leaves as it is goes on like that. -/
theorem isKept_spared (file : NodeId) (content : Content) :
    ByteSource.IsKept fun stream : Stream => stream.written file content = stream where
  read stream count h := by
    have hshowing := (isKept_showing _).read stream count rfl
    rw [written_eq_self_iff] at h ⊢
    rw [hshowing]
    exact h
  seek stream position h := by
    have hshowing := (isKept_showing _).seek stream position rfl
    rw [written_eq_self_iff] at h ⊢
    rw [hshowing]
    exact h

end Stream

/-- So does any source. -/
theorem AnySource.isKept_spared (file : NodeId) (content : Content) :
    ByteSource.IsKept fun source : AnySource => source.written file content = source where
  read source count h := by
    cases source with
    | custom inner => rfl
    | boxed inner => rfl
    | stream inner =>
      have hread := (Stream.isKept_spared file content).read inner count (AnySource.stream.inj h)
      exact congrArg AnySource.stream hread
  seek source position h := by
    cases source with
    | custom inner => rfl
    | boxed inner => rfl
    | stream inner =>
      have hseek := (Stream.isKept_spared file content).seek inner position (AnySource.stream.inj h)
      exact congrArg AnySource.stream hseek

namespace Container

/-- That what happens does not change the bytes behind the container: it may be asked anything, but
what is written is written to other files, or is what the file holds already. -/
def IsSpared (container : Container) (events : List Event) : Prop :=
  ∀ file content, .written file content ∈ events → container.written file content = container

/-- A container that a write leaves as it is goes on like that. -/
theorem Moved.written_eq_self {container later : Container}
    (h : Moved ByteSource.Leads container later) {file : NodeId} {content : Content}
    (hspared : container.written file content = container) :
    later.written file content = later := by
  cases h with
  | looseFile loose hleads =>
    have hstream : loose.stream.written file content = loose.stream :=
      congrArg LooseFile.stream (Container.looseFile.inj hspared)
    have hlater := hleads _ (Stream.isKept_spared file content) hstream
    exact congrArg (fun stream => Container.looseFile { loose with stream }) hlater
  | wad archive hleads =>
    have hsource : archive.source.written file content = archive.source :=
      congrArg WadContainer.source (Container.wad.inj hspared)
    have hlater := hleads _ (AnySource.isKept_spared file content) hsource
    exact congrArg (fun source => Container.wad { archive with source }) hlater
  | mapWad map hleads =>
    have hsource : map.wad.source.written file content = map.wad.source :=
      congrArg (fun inner : MapWadContainer AnySource => inner.wad.source)
        (Container.mapWad.inj hspared)
    have hlater := hleads _ (AnySource.isKept_spared file content) hsource
    exact congrArg (fun source => Container.mapWad { map with wad := { map.wad with source } })
      hlater
  | tree files => rfl

/-- **A life without a change of the bytes.**  The source of the container is led on, as if it had
only been asked. -/
theorem moved_afterAll_of_isSpared {events : List Event} {container : Container}
    (h : container.IsSpared events) :
    Moved ByteSource.Leads container (container.afterAll events) := by
  induction events generalizing container with
  | nil => exact .refl (fun _ _ => .refl) container
  | cons event rest ih =>
    have hstep : Moved ByteSource.Leads container (container.afterEvent event) := by
      cases event with
      | asked disk call => exact moved_after disk container call
      | written file content =>
        have hsame := h file content List.mem_cons_self
        show Moved _ container (container.written file content)
        rw [hsame]
        exact .refl (fun _ _ => .refl) container
    have hrest : (container.afterEvent event).IsSpared rest := fun file content hmem =>
      hstep.written_eq_self (h file content (List.mem_cons_of_mem _ hmem))
    exact hstep.trans (fun _ _ _ _ _ => .trans) (ih hrest)

/-! ## What a container says -/

section Says

variable {container later : Container} (h : Moved ByteSource.SameExtent container later)
include h

theorem Moved.id_eq : later.id = container.id := by cases h <;> rfl

theorem Moved.kind_eq : later.kind = container.kind := by cases h <;> rfl

theorem Moved.resourceIds_eq : later.resourceIds = container.resourceIds := by cases h <;> rfl

theorem Moved.count_eq : later.count = container.count := by
  cases h with
  | looseFile file hextent =>
    show (if ByteSource.isValid _ then 1 else 0) = if ByteSource.isValid file.stream then 1 else 0
    rw [hextent.2]
  | wad archive hextent => rfl
  | mapWad map hextent => rfl
  | tree files => rfl

theorem Moved.sizeOf_eq (resource : ResourceId) :
    later.sizeOf resource = container.sizeOf resource := by
  cases h with
  | looseFile file hextent =>
    show LooseFile.sizeOf _ resource = file.sizeOf resource
    simp only [LooseFile.sizeOf, hextent.1]
  | wad archive hextent =>
    show WadContainer.sizeOf _ resource = archive.sizeOf resource
    simp only [WadContainer.sizeOf, WadContainer.lumpSize, hextent.1]
  | mapWad map hextent =>
    show WadContainer.sizeOf _ resource = map.wad.sizeOf resource
    simp only [WadContainer.sizeOf, WadContainer.lumpSize, hextent.1]
  | tree files => rfl

end Says

end Container

end WadCatalog
