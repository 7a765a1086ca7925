import WadCatalog.Proofs.Container.Lifetime
import WadCatalog.Proofs.Container.Ownership
import WadCatalog.Proofs.Disk.Walk

/-
  The contract of reads.

  There are four kinds of container, with three ways of reading behind them, and one contract for all
  of them.

  1. **Whatever the source does** a load gives no more than there is room for, and no more than the
     size of the resource (`length_load_le`).
  2. **If the bytes are still there** (`IsIntact`) a resource *is* some bytes (`Gives`): it has their
     length as its size, and a load gives their front, as far as there is room.  This is what the
     promises about loading come from, for all kinds alike (`IsIntact.exists_gives`).
  3. **Opening leaves a container intact** (`Opening.isIntact_run`).  A source that can be read
     completely holds its bytes; the length of a file in a tree is that of the file its path leads to,
     which is where soundness of the disk comes in.
  4. **A life leaves it intact** too, as long as the bytes do not change (`IsIntact.moved`).

  How many resources a container has is the number of those it lists, unless it is an archive of one
  map (`Opening.count_run`).
-/

namespace WadCatalog

namespace ByteSource

variable {σ : Type} [ByteSource σ]

/-- That a source can be read completely, if there is a stream behind it at all. -/
def IsComplete (source : σ) : Prop := isValid source = true → ∃ bytes, Holds bytes source

/-- So can an image of it. -/
theorem Mirrors.isComplete {τ : Type} [ByteSource τ] {source : σ} {image : τ}
    (h : Mirrors source image) (hcomplete : IsComplete source) : IsComplete image := by
  intro hvalid
  obtain ⟨bytes, hholds⟩ := hcomplete (h.isValid_eq.symm.trans hvalid)
  exact ⟨bytes, h.holds hholds⟩

end ByteSource

/-- A file of a disk can be read completely. -/
theorem Stream.isComplete_openFile (disk : Disk) (path : FilePath) :
    ByteSource.IsComplete (openFile disk path) := by
  intro hvalid
  cases hopen : disk.openFile path with
  | error error =>
    rw [openFile, hopen] at hvalid
    cases hvalid
  | ok found => exact ⟨found.2.bytes, (isSteady_openFile hopen).holds⟩

/-! ## Whatever the source does -/

theorem LooseFile.length_load_le (file : LooseFile) (resource : ResourceId) (room : Nat) :
    (file.load resource room).1.length ≤ min room (file.sizeOf resource) := by
  unfold load
  simp only
  split
  · exact Nat.zero_le _
  · exact ByteSource.length_readAt_le _ _ _

theorem WadContainer.length_load_le {σ : Type} [ByteSource σ] (archive : WadContainer σ)
    (resource : ResourceId) (room : Nat) :
    (archive.load resource room).1.length ≤ min room (archive.sizeOf resource) := by
  unfold load sizeOf
  cases archive.lookup.lumpOf? resource with
  | none => exact Nat.zero_le _
  | some lump =>
    simp only
    unfold loadLump
    cases archive.directory.get? lump with
    | none => exact Nat.zero_le _
    | some entry =>
      simp only
      split
      · exact Nat.zero_le _
      · exact ByteSource.length_readAt_le _ _ _

theorem TreeContainer.length_load_le (files : TreeContainer) (disk : Disk)
    (resource : ResourceId) (room : Nat) :
    (files.load disk resource room).length ≤ min room (files.sizeOf resource) := by
  unfold load
  cases files.entry? resource with
  | none => exact Nat.zero_le _
  | some entry =>
    simp only
    split
    · exact Nat.zero_le _
    · exact ByteSource.length_readAt_le _ _ _

namespace Container

/-- A load gives no more than there is room for, and no more than the size. -/
theorem length_load_le (disk : Disk) (container : Container) (resource : ResourceId) (room : Nat) :
    (container.load disk resource room).1.length ≤ min room (container.sizeOf resource) := by
  cases container with
  | looseFile file => exact file.length_load_le resource room
  | wad archive => exact archive.length_load_le resource room
  | mapWad map => exact map.wad.length_load_le resource room
  | tree files => exact files.length_load_le disk resource room

/-- So a container gives nothing of a resource without bytes. -/
theorem isSilent_of_sizeOf {container : Container} {resource : ResourceId}
    (h : container.sizeOf resource = 0) : container.IsSilent resource := by
  refine ⟨h, fun disk room => ?_⟩
  have hlength := container.length_load_le disk resource room
  rw [h, Nat.min_zero] at hlength
  exact List.length_eq_zero_iff.1 (Nat.le_zero.1 hlength)

/-! ## If the bytes are still there -/

/-- That a resource is some bytes: it has their length, and a load gives their front. -/
structure Gives (disk : Disk) (container : Container) (resource : ResourceId) (bytes : Bytes) :
    Prop where
  sizeOf_eq : container.sizeOf resource = bytes.length
  load_eq : ∀ room, (container.load disk resource room).1 = bytes.take room

theorem IsSilent.gives {container : Container} {resource : ResourceId}
    (h : container.IsSilent resource) (disk : Disk) : container.Gives disk resource [] :=
  ⟨h.sizeOf, fun room => (h.load disk room).trans List.take_nil.symm⟩

/-- That everything behind a container can be read.  An archive of one map serves nothing, and
neither does a container without a stream behind it. -/
def IsIntact (disk : Disk) : Container → Prop
  | looseFile file => file.resource = none ∨ ∃ bytes, ByteSource.Holds bytes file.stream
  | wad archive => archive.directory = .empty ∨ ∃ bytes, ByteSource.Holds bytes archive.source
  | mapWad map => map.wad.lookup = .empty
  | tree files => ∀ entry ∈ files.entries, ∃ file content,
      disk.openFile entry.path = .ok (file, content) ∧ content.size = entry.length

/-- What both a single file and a file of a tree do to load: the front of the file, but not beyond the
largest size. -/
theorem readFront_eq_take {σ : Type} [ByteSource σ] {bytes : Bytes} {source : σ}
    (h : ByteSource.Holds bytes source) (room : Nat) :
    (if min room (min bytes.length sizeLimit) = 0 then []
      else (ByteSource.readAt source 0 (min room (min bytes.length sizeLimit))).1) =
        (bytes.take sizeLimit).take room := by
  have hfront : bytes.take (min room (min bytes.length sizeLimit)) =
      (bytes.take sizeLimit).take room := by
    rw [List.take_take, List.take_eq_take_iff]
    omega
  split
  next hnothing =>
    rw [← hfront, hnothing, List.take_zero]
  next =>
    rw [← hfront]
    exact h.readAt_eq (by omega) (by decide)

/-- The resource of a single file is the front of the file. -/
theorem gives_looseFile {file : LooseFile} {bytes : Bytes}
    (h : ByteSource.Holds bytes file.stream) (disk : Disk) {resource : ResourceId}
    (hown : file.resource = some resource) :
    (looseFile file).Gives disk resource (bytes.take sizeLimit) := by
  have hsize : file.sizeOf resource = min bytes.length sizeLimit := by
    rw [LooseFile.sizeOf, if_pos hown, h.size_eq]
  constructor
  · rw [List.length_take, Nat.min_comm]
    exact hsize
  · intro room
    rw [← readFront_eq_take h room]
    show (file.load resource room).1 = _
    rw [LooseFile.load, hsize]
    simp only
    split <;> rfl

theorem exists_gives_looseFile {file : LooseFile} {bytes : Bytes}
    (h : ByteSource.Holds bytes file.stream) (disk : Disk) (resource : ResourceId) :
    ∃ range, (looseFile file).Gives disk resource range := by
  by_cases hown : file.resource = some resource
  · exact ⟨_, gives_looseFile h disk hown⟩
  · exact ⟨[], (isSilent_looseFile hown).gives disk⟩

theorem exists_gives_wad {archive : WadContainer AnySource} {bytes : Bytes}
    (h : ByteSource.Holds bytes archive.source) (disk : Disk) (resource : ResourceId) :
    ∃ range, (wad archive).Gives disk resource range := by
  cases hlump : archive.lookup.lumpOf? resource with
  | none => exact ⟨[], (isSilent_wad hlump).gives disk⟩
  | some lump =>
    refine ⟨archive.directory.bytesOf bytes lump, ?_, ?_⟩
    · show archive.sizeOf resource = _
      rw [WadContainer.sizeOf, hlump]
      exact WadContainer.lumpSize_eq_length h lump
    · intro room
      show (archive.load resource room).1 = _
      rw [WadContainer.load, hlump]
      exact WadContainer.loadLump_eq_take h lump room

/-- An archive without lumps gives nothing. -/
theorem isSilent_wad_of_empty {archive : WadContainer AnySource}
    (h : archive.directory = .empty) (resource : ResourceId) : (wad archive).IsSilent resource := by
  apply isSilent_of_sizeOf
  show archive.sizeOf resource = 0
  unfold WadContainer.sizeOf
  split
  · rw [WadContainer.lumpSize, h]
    rfl
  · rfl

/-- A resource of a tree is the front of its file, as long as that has the recorded length. -/
theorem gives_tree {files : TreeContainer} {disk : Disk} {resource : ResourceId}
    {entry : FileEntry} (hentry : files.entry? resource = some entry) {file : NodeId}
    {content : Content} (hopen : disk.openFile entry.path = .ok (file, content))
    (hlength : content.size = entry.length) :
    (tree files).Gives disk resource (content.bytes.take sizeLimit) := by
  have hholds := (Stream.isSteady_openFile hopen).holds
  have hsize : files.sizeOf resource = min content.bytes.length sizeLimit := by
    rw [TreeContainer.sizeOf, hentry, Content.length_bytes, hlength]
  constructor
  · rw [List.length_take, Nat.min_comm]
    exact hsize
  · intro room
    rw [← readFront_eq_take hholds room]
    show files.load disk resource room = _
    rw [TreeContainer.load, hentry, hsize]

theorem exists_gives_tree {files : TreeContainer} {disk : Disk}
    (h : ∀ entry ∈ files.entries, ∃ file content,
      disk.openFile entry.path = .ok (file, content) ∧ content.size = entry.length)
    (resource : ResourceId) : ∃ range, (tree files).Gives disk resource range := by
  cases hentry : files.entry? resource with
  | none =>
    refine ⟨[], ?_, fun room => ?_⟩
    · show files.sizeOf resource = 0
      rw [TreeContainer.sizeOf, hentry]
    · show files.load disk resource room = _
      rw [TreeContainer.load, hentry, List.take_nil]
  | some entry =>
    obtain ⟨lump, -, hmem⟩ := Option.bind_eq_some_iff.1 hentry
    obtain ⟨file, content, hopen, hlength⟩ := h entry (Array.mem_of_getElem? hmem)
    exact ⟨_, gives_tree hentry hopen hlength⟩

/-- **Resources are bytes**, as long as everything behind the container can be read. -/
theorem IsIntact.exists_gives {disk : Disk} {container : Container} (h : container.IsIntact disk)
    (resource : ResourceId) : ∃ range, container.Gives disk resource range := by
  cases container with
  | looseFile file =>
    rcases h with hnone | ⟨bytes, hholds⟩
    · have hother : file.resource ≠ some resource := by rw [hnone]; nofun
      exact ⟨[], (isSilent_looseFile hother).gives disk⟩
    · exact exists_gives_looseFile hholds disk resource
  | wad archive =>
    rcases h with hempty | ⟨bytes, hholds⟩
    · exact ⟨[], (isSilent_wad_of_empty hempty resource).gives disk⟩
    · exact exists_gives_wad hholds disk resource
  | mapWad map =>
    have hlump : map.wad.lookup.lumpOf? resource = none := by rw [h]; rfl
    exact ⟨[], (isSilent_mapWad hlump).gives disk⟩
  | tree files => exact exists_gives_tree h resource

/-- A container stays intact while its source is led on. -/
theorem IsIntact.moved {disk : Disk} {container later : Container} (h : container.IsIntact disk)
    (hmoved : Moved ByteSource.Leads container later) : later.IsIntact disk := by
  cases hmoved with
  | looseFile file hleads =>
    exact h.imp_right fun ⟨bytes, hholds⟩ => ⟨bytes, hleads.holds hholds⟩
  | wad archive hleads =>
    exact h.imp_right fun ⟨bytes, hholds⟩ => ⟨bytes, hleads.holds hholds⟩
  | mapWad map hleads => exact h
  | tree files => exact h

end Container

/-! ## What opening leaves -/

/-- The paths of the files that a container opens anew for each load. -/
def Container.reopened : Container → List FilePath
  | .tree files => files.entries.toList.map (·.path)
  | .looseFile _ | .wad _ | .mapWad _ => []

/-- That the files at some paths can be read as they were: each can be opened now, and holds the bytes
it held. -/
def Disk.KeepsFiles (disk now : Disk) (paths : List FilePath) : Prop :=
  ∀ path ∈ paths, ∀ file content allowed, disk.fileAt path = .ok (file, content, allowed) →
    ∃ same, now.openFile path = .ok (same, content)

/-- Nothing has happened to files that can be opened. -/
theorem Disk.keepsFiles_self {disk : Disk} {paths : List FilePath}
    (h : ∀ path ∈ paths, ∃ found, disk.openFile path = .ok found) : disk.KeepsFiles disk paths := by
  intro path hpath file content allowed hfile
  obtain ⟨⟨same, held⟩, hopen⟩ := h path hpath
  cases hfile.symm.trans (fileAt_of_openFile hopen)
  exact ⟨file, hopen⟩

namespace LooseFile

/-- Looking for the name of a file leads its stream on. -/
theorem leads_nameOf (path : FilePath) (stream : Stream) :
    ByteSource.Leads Stream stream (nameOf path stream).2 := by
  unfold nameOf isDehacked
  split
  · simp only
    split
    · exact .refl _
    · exact ByteSource.leads_readAt _ _ _
  · exact .refl _

variable {ρ : Type} [Registry ρ] (disk : Disk) (registry : ρ) (path : FilePath) (id : ContainerId)

theorem stream_openAt : (openAt disk registry path id).1.stream =
    (nameOf path (.openFile disk path)).2 := by
  unfold openAt
  cases hname : (nameOf path (.openFile disk path)).1 <;> simp only [hname]

/-- A file is registered if it has a name. -/
theorem isSome_resource_openAt : (openAt disk registry path id).1.resource.isSome =
    (nameOf path (.openFile disk path)).1.isSome := by
  unfold openAt
  cases hname : (nameOf path (.openFile disk path)).1 <;> simp only [hname] <;> rfl

end LooseFile

namespace Opening

/-- That the disk of an opening, if it has one, is sound, as every disk is that comes about. -/
def IsSound : Opening → Prop
  | detected disk _ _ | explicit _ disk _ _ => disk.IsSound
  | wadSource _ _ | mapSource _ _ => True

/-- That what was opened can be read completely: a source from the start, and the files of a tree as
they were on the disk. -/
def IsReadable (container : Container) (now : Disk) : Opening → Prop
  | detected disk _ _ | explicit _ disk _ _ => disk.KeepsFiles now container.reopened
  | wadSource _ source => ByteSource.IsComplete source
  | mapSource _ _ => True

variable {ρ : Type} [Registry ρ]

/-- An archive over a source that can be read completely holds its bytes, or has no lumps. -/
theorem isIntact_openWadSource {source : AnySource} (h : ByteSource.IsComplete source)
    (now : Disk) (context : OpenContext) (registry : ρ) (id : ContainerId) :
    (Container.openWadSource context registry source id).container.IsIntact now := by
  have hleads := (WadContainer.leads_ofSource source id).trans
    (WadContainer.leads_register context registry (.ofSource source id))
  by_cases hvalid : ByteSource.isValid source = true
  · obtain ⟨bytes, hholds⟩ := h hvalid
    exact .inr ⟨bytes, hleads.holds hholds⟩
  · have hread : (WadContainer.readDirectory source).1 = .error .unavailable := by
      rw [WadContainer.readDirectory, if_neg hvalid]
    left
    show (WadContainer.ofSource source id).directory = .empty
    rw [WadContainer.ofSource_of_error hread]

/-- A file that was opened holds its bytes, or is not registered. -/
theorem isIntact_looseFile (disk now : Disk) (registry : ρ) (path : FilePath) (id : ContainerId) :
    (Container.looseFile (LooseFile.openAt disk registry path id).1).IsIntact now := by
  by_cases hvalid : ByteSource.isValid (Stream.openFile disk path) = true
  · right
    obtain ⟨bytes, hholds⟩ := Stream.isComplete_openFile disk path hvalid
    rw [LooseFile.stream_openAt]
    exact ⟨bytes, (LooseFile.leads_nameOf path _).holds hholds⟩
  · left
    have hname : (LooseFile.nameOf path (.openFile disk path)).1 = none := by
      rw [LooseFile.nameOf, if_neg hvalid]
    rw [← Option.isNone_iff_eq_none, ← Option.not_isSome, LooseFile.isSome_resource_openAt, hname]
    rfl

/-- The files of a tree on a sound disk have the lengths that were recorded. -/
theorem exists_fileAt_of_mem_survey {disk : Disk} (h : disk.IsSound) {config : Config}
    {root : FilePath} {entry : FileEntry} (hentry : entry ∈ TreeContainer.survey disk config root) :
    ∃ file content allowed, disk.fileAt entry.path = .ok (file, content, allowed) ∧
      content.size = entry.length := by
  obtain ⟨found, hfound, hkept⟩ := List.mem_filterMap.1 hentry
  obtain ⟨path, -, rfl⟩ := Option.map_eq_some_iff.1 hkept
  exact Disk.exists_fileAt_of_mem_walk h hfound

/-- A tree whose files can be read as they were is intact. -/
theorem isIntact_tree {disk now : Disk} (h : disk.IsSound) (config : Config) (registry : ρ)
    (root : FilePath) (id : ContainerId)
    (hkeeps : disk.KeepsFiles now
      (Container.tree (TreeContainer.openAt disk config registry root id).1).reopened) :
    (Container.tree (TreeContainer.openAt disk config registry root id).1).IsIntact now := by
  intro entry hentry
  have hpath : entry.path ∈
      (Container.tree (TreeContainer.openAt disk config registry root id).1).reopened :=
    List.mem_map_of_mem (Array.mem_toList_iff.2 hentry)
  obtain ⟨file, content, allowed, hfile, hlength⟩ :=
    exists_fileAt_of_mem_survey h (List.mem_toArray.1 hentry)
  obtain ⟨same, hsame⟩ := hkeeps entry.path hpath file content allowed hfile
  exact ⟨same, content, hsame, hlength⟩

theorem isIntact_openAs {disk now : Disk} (h : disk.IsSound) (kind : ContainerKind)
    (context : OpenContext) (registry : ρ) (path : FilePath) (id : ContainerId)
    (hkeeps : disk.KeepsFiles now
      (Container.openAs kind disk context registry path id).container.reopened) :
    (Container.openAs kind disk context registry path id).container.IsIntact now := by
  cases kind with
  | looseFile => exact isIntact_looseFile disk now registry path id
  | wad =>
    have hcomplete := (AnySource.mirrors_stream (.openFile disk path)).isComplete
      (Stream.isComplete_openFile disk path)
    exact isIntact_openWadSource hcomplete now context registry id
  | mapWad => exact rfl
  | tree => exact isIntact_tree h context.config registry path id hkeeps

/-- **Opening** leaves a container intact, as long as what was opened can be read. -/
theorem isIntact_run {opening : Opening} (hsound : opening.IsSound) (registry : ρ)
    (id : ContainerId) {now : Disk}
    (h : opening.IsReadable (opening.run registry id).container now) :
    (opening.run registry id).container.IsIntact now := by
  cases opening with
  | detected disk context path => exact isIntact_openAs hsound _ context registry path id h
  | explicit kind disk context path => exact isIntact_openAs hsound kind context registry path id h
  | wadSource context source => exact isIntact_openWadSource h now context registry id
  | mapSource source mapName => exact rfl

/-! ## How many resources there are -/

theorem count_openWad (context : OpenContext) (registry : ρ) (source : AnySource)
    (id : ContainerId) :
    (Container.openWadSource context registry source id).container.count =
      (Container.openWadSource context registry source id).container.resourceIds.length := by
  have hannounces := announces_openWad context registry (.ofSource source id) rfl
  have hcount : (WadContainer.ofSource source id).count =
      (WadContainer.ofSource source id).directory.countWithin
        (ByteSource.size (WadContainer.ofSource source id).source) := rfl
  show (WadContainer.ofSource source id).count = _
  rw [Container.openWadSource, hannounces.resourceIds_eq, Registry.length_addAll,
    WadContainer.length_addresses, LumpDirectory.length_idsWithin, hcount]

/-- A file has a name if it can be opened: on a sound disk its path has a base name then. -/
theorem isSome_nameOf_openFile {disk : Disk} (h : disk.IsSound) (path : FilePath) :
    (LooseFile.nameOf path (.openFile disk path)).1.isSome =
      ByteSource.isValid (Stream.openFile disk path) := by
  unfold LooseFile.nameOf
  cases hopen : disk.openFile path with
  | error error =>
    have hinvalid : ByteSource.isValid (Stream.openFile disk path) = false := by
      rw [Stream.openFile, hopen]
      rfl
    rw [hinvalid]
    rfl
  | ok found =>
    have hvalid : ByteSource.isValid (Stream.openFile disk path) = true := by
      rw [Stream.openFile, hopen]
      rfl
    have hbase := Disk.isSome_fileName?_of_openFile h hopen
    have hname : (LumpName.ofPath? path).isSome = true := by
      rw [LumpName.ofPath?, FilePath.stem?, Option.isSome_map, Option.isSome_map]
      exact hbase
    rw [hvalid, if_pos rfl]
    simp only
    split
    · rfl
    · exact hname

theorem count_looseFile {disk : Disk} (h : disk.IsSound) (registry : ρ) (path : FilePath)
    (id : ContainerId) :
    (LooseFile.openAt disk registry path id).1.count =
      (LooseFile.openAt disk registry path id).1.resource.toList.length := by
  have hstream : ByteSource.isValid (LooseFile.openAt disk registry path id).1.stream =
      ByteSource.isValid (Stream.openFile disk path) := by
    rw [LooseFile.stream_openAt]
    exact (LooseFile.leads_nameOf path _).sameExtent.2
  have hresource := LooseFile.isSome_resource_openAt disk registry path id
  rw [isSome_nameOf_openFile h, ← hstream] at hresource
  rw [LooseFile.count, ← hresource]
  cases (LooseFile.openAt disk registry path id).1.resource <;> rfl

theorem count_openAs {disk : Disk} (h : disk.IsSound) (kind : ContainerKind)
    (context : OpenContext) (registry : ρ) (path : FilePath) (id : ContainerId)
    (hkind : (Container.openAs kind disk context registry path id).container.kind ≠ .mapWad) :
    (Container.openAs kind disk context registry path id).container.count =
      (Container.openAs kind disk context registry path id).container.resourceIds.length := by
  cases kind with
  | looseFile => exact count_looseFile h registry path id
  | wad => exact count_openWad context registry _ id
  | mapWad => exact absurd rfl hkind
  | tree =>
    rw [(announces_tree disk registry path id context).resourceIds_eq, Registry.length_addAll,
      TreeContainer.addresses, List.length_map]
    exact List.size_toArray

/-- **How many resources there are.**  Every container but an archive of one map has as many as it
lists. -/
theorem count_run {opening : Opening} (h : opening.IsSound) (registry : ρ) (id : ContainerId)
    (hkind : (opening.run registry id).container.kind ≠ .mapWad) :
    (opening.run registry id).container.count =
      (opening.run registry id).container.resourceIds.length := by
  cases opening with
  | detected disk context path => exact count_openAs h _ context registry path id hkind
  | explicit kind disk context path => exact count_openAs h kind context registry path id hkind
  | wadSource context source => exact count_openWad context registry source id
  | mapSource source mapName => exact absurd rfl hkind

end Opening

namespace Container

/-! ## The contract -/

theorem resourceIds_of_kind {container : Container} (h : container.kind = .mapWad) :
    container.resourceIds = [] := by
  cases container with
  | mapWad map => rfl
  | looseFile file => cases h
  | wad archive => cases h
  | tree files => cases h

/-- Filling a buffer writes over its front and leaves the rest. -/
theorem fill_le (disk : Disk) (container : Container) (resource : ResourceId) (buffer : Bytes) :
    (container.fill disk resource buffer).1 ≤
        min buffer.length (container.sizeOf resource) ∧
      (container.fill disk resource buffer).2.length = buffer.length ∧
      (container.fill disk resource buffer).2.drop (container.fill disk resource buffer).1 =
        buffer.drop (container.fill disk resource buffer).1 := by
  have hlength := container.length_load_le disk resource buffer.length
  exact ⟨hlength, Bytes.length_overwrite (Nat.le_trans hlength (Nat.min_le_left _ _)),
    Bytes.drop_overwrite _ _⟩

/-- A silent container fills nothing. -/
theorem IsSilent.fill {container : Container} {resource : ResourceId}
    (h : container.IsSilent resource) (disk : Disk) (buffer : Bytes) :
    container.fill disk resource buffer = (0, buffer) := by
  rw [Container.fill, h.load]
  rfl

/-- What a resource is decides what filling a buffer and loading all of it give. -/
theorem Gives.loadAll_fill {disk : Disk} {container : Container} {resource : ResourceId}
    {bytes : Bytes} (h : container.Gives disk resource bytes) :
    (container.loadAll disk resource).1 = bytes ∧ ∀ buffer,
      (container.fill disk resource buffer).1 = min buffer.length (container.sizeOf resource) ∧
      (container.fill disk resource buffer).2.take (container.fill disk resource buffer).1 =
        bytes.take (min buffer.length (container.sizeOf resource)) := by
  constructor
  · show (container.load disk resource (container.sizeOf resource)).1 = bytes
    rw [h.load_eq, h.sizeOf_eq, List.take_length]
  · intro buffer
    rw [h.sizeOf_eq]
    have hdata := h.load_eq buffer.length
    constructor
    · show (container.load disk resource buffer.length).1.length = _
      rw [hdata, List.length_take]
    · show (buffer.overwrite (container.load disk resource buffer.length).1).take
        (container.load disk resource buffer.length).1.length = _
      rw [Bytes.take_overwrite, hdata, List.take_eq_take_iff]
      omega

/-- **The contract of reads.**  Take a container that was opened in any way, into any registry, and
whatever happened to it afterwards, while the disk has become any other.

A resource that the container does not list has no bytes.  Filling a buffer gives no more bytes than
fit in and no more than the resource has, and leaves the rest of the buffer.  If what was opened can
be read completely and holds what it held, all bytes of a resource are as many as its size, and
filling a buffer gives exactly the front of them, as far as it fits.  And a container has as many
resources as it lists, but an archive of one map lists none. -/
theorem read_contract {ρ : Type} [Registry ρ] (opening : Opening) (registry : ρ)
    (id : ContainerId) (events : List Event) (now : Disk) (resource : ResourceId) :
    let opened := (opening.run registry id).container
    let container := opened.afterAll events
    let size := container.sizeOf resource
    let all := (container.loadAll now resource).1
    (resource ∉ container.resourceIds → size = 0 ∧ all = [] ∧
      ∀ buffer, container.fill now resource buffer = (0, buffer)) ∧
    (∀ buffer,
      let filled := container.fill now resource buffer
      filled.1 ≤ min buffer.length size ∧ filled.2.length = buffer.length ∧
        filled.2.drop filled.1 = buffer.drop filled.1) ∧
    (opening.IsSound → opening.IsReadable opened now → opened.IsSpared events →
      all.length = size ∧ ∀ buffer,
        let filled := container.fill now resource buffer
        filled.1 = min buffer.length size ∧
          filled.2.take filled.1 = all.take (min buffer.length size)) ∧
    (opening.IsSound → container.kind ≠ .mapWad →
      container.count = container.resourceIds.length) ∧
    (container.kind = .mapWad → container.resourceIds = []) := by
  intro opened container size all
  have hmoved : Moved ByteSource.SameExtent opened container := moved_afterAll events opened
  refine ⟨?_, container.fill_le now resource, ?_, ?_, fun hkind => resourceIds_of_kind hkind⟩
  · intro hother
    obtain ⟨paths, hannounces⟩ := opening.announces registry id
    have hsilent : container.IsSilent resource := by
      apply isSilent_of_sizeOf
      rw [hmoved.sizeOf_eq]
      rw [hmoved.resourceIds_eq, hannounces.resourceIds_eq] at hother
      exact (hannounces.isSilent resource hother).sizeOf
    exact ⟨hsilent.sizeOf, hsilent.loadAll now, hsilent.fill now⟩
  · intro hsound hreadable hspared
    have hintact : container.IsIntact now :=
      (Opening.isIntact_run hsound registry id hreadable).moved
        (moved_afterAll_of_isSpared hspared)
    obtain ⟨bytes, hgives⟩ := hintact.exists_gives resource
    obtain ⟨hall, hfill⟩ := hgives.loadAll_fill
    have hall' : all = bytes := hall
    rw [hall']
    exact ⟨hgives.sizeOf_eq.symm, hfill⟩
  · intro hsound hkind
    rw [hmoved.count_eq, hmoved.resourceIds_eq]
    exact Opening.count_run hsound registry id (hmoved.kind_eq ▸ hkind)

/-- A disk with one file. -/
def noteDisk : Disk :=
  match Disk.empty.writeFile (.ofText "/note.txt") (.ofBytes [1, 2, 3]) with
  | .ok (_, disk) => disk
  | .error _ => .empty

theorem isBuilt_noteDisk : noteDisk.IsBuilt := by
  unfold noteDisk
  split
  next file disk hwrite => exact .writes .start hwrite
  next => exact .start

/-- The tree of that disk, which was asked for all bytes of two resources. -/
def askedNotes : Container :=
  (Opening.run Catalog.empty ⟨0⟩ (.detected noteDisk {} (.ofText "/"))).container.afterAll
    [.asked noteDisk (.loadAll ⟨0⟩), .asked noteDisk (.loadAll ⟨1⟩)]

theorem read_contract_askedNotes :
    askedNotes.count = 1 ∧ askedNotes.resourceIds = [⟨0⟩] ∧
      (askedNotes.loadAll noteDisk ⟨0⟩).1.length = 3 ∧
      (askedNotes.fill noteDisk ⟨0⟩ [7, 7]).1 = 2 ∧
      askedNotes.fill noteDisk ⟨1⟩ [7, 7] = (0, [7, 7]) := by
  have hids : askedNotes.resourceIds = [⟨0⟩] := by decide +kernel
  have hsize : askedNotes.sizeOf ⟨0⟩ = 3 := by decide +kernel
  have hkind : askedNotes.kind ≠ .mapWad := by decide +kernel
  have hcontract := read_contract (.detected noteDisk {} (.ofText "/")) Catalog.empty ⟨0⟩
    [.asked noteDisk (.loadAll ⟨0⟩), .asked noteDisk (.loadAll ⟨1⟩)] noteDisk
  obtain ⟨-, -, hwhole, hcount, -⟩ := hcontract ⟨0⟩
  obtain ⟨hother, -⟩ := hcontract ⟨1⟩
  have hspared : ∀ file content, (.written file content : Event) ∉
      [.asked noteDisk (.loadAll ⟨0⟩), .asked noteDisk (.loadAll ⟨1⟩)] := by simp
  have hpaths : (Opening.run Catalog.empty ⟨0⟩
      (.detected noteDisk {} (.ofText "/"))).container.reopened = [.ofText "/note.txt"] := by
    decide +kernel
  have hnote : (noteDisk.openFile (.ofText "/note.txt")).toOption.isSome = true := by decide +kernel
  have hkeeps : noteDisk.KeepsFiles noteDisk (Opening.run Catalog.empty ⟨0⟩
      (.detected noteDisk {} (.ofText "/"))).container.reopened := by
    refine Disk.keepsFiles_self fun path hpath => ?_
    rw [hpaths, List.mem_singleton] at hpath
    cases hopen : noteDisk.openFile path with
    | ok found => exact ⟨found, rfl⟩
    | error error =>
      rw [← hpath, hopen] at hnote
      cases hnote
  obtain ⟨hall, hfill⟩ := hwhole isBuilt_noteDisk.isSound hkeeps
    fun file content hmem => absurd hmem (hspared file content)
  have hnothing := (hother (show ⟨1⟩ ∉ askedNotes.resourceIds by rw [hids]; decide)).2.2 [7, 7]
  have hlisted : askedNotes.count = askedNotes.resourceIds.length := hcount isBuilt_noteDisk.isSound hkind
  have hfilled : (askedNotes.fill noteDisk ⟨0⟩ [7, 7]).1 = min 2 (askedNotes.sizeOf ⟨0⟩) :=
    (hfill [7, 7]).1
  refine ⟨?_, hids, hall.trans hsize, ?_, hnothing⟩
  · rw [hlisted, hids]
    rfl
  · rw [hfilled, hsize]
    rfl

end Container

end WadCatalog
