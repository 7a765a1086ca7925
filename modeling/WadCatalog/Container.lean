import WadCatalog.ByteSource.Any
import WadCatalog.Container.LooseFile
import WadCatalog.Container.MapWad
import WadCatalog.Container.Tree

/-
  Containers of resources.

  There are four kinds of container: a single file, an archive, an archive of one map, and a
  directory tree.  Opening one does all the work; it never fails, but what cannot be read leaves the
  container with fewer resources, or none.  Afterwards all kinds answer the same questions.

  A load takes room for some number of bytes, gives at most as many, and never more than the size of
  the resource.  A resource that the container does not serve has no bytes.
-/

namespace WadCatalog

/-- The kinds of container. -/
inductive ContainerKind where
  /-- A single file. -/
  | looseFile
  /-- An archive. -/
  | wad
  /-- An archive of one map. -/
  | mapWad
  /-- A directory tree. -/
  | tree
  deriving DecidableEq

namespace ContainerKind

/-- The kind that fits what is at a path: directories are trees, files that start like an archive
are archives, and everything else is a single file. -/
def detect (disk : Disk) (path : FilePath) : ContainerKind :=
  if disk.isDirectory path then tree
  else match disk.openFile path with
    | .ok (_, content) =>
      if (Archive.Kind.ofMagic? (content.slice 0 4)).isSome then wad else looseFile
    | .error _ => looseFile

end ContainerKind

/-- A container of any kind. -/
inductive Container where
  /-- A single file. -/
  | looseFile (container : LooseFile)
  /-- An archive. -/
  | wad (container : WadContainer AnySource)
  /-- An archive of one map. -/
  | mapWad (container : MapWadContainer AnySource)
  /-- A directory tree. -/
  | tree (container : TreeContainer)

/-- A container that has just been opened. -/
structure Opened (ρ : Type) where
  /-- The container. -/
  container : Container
  /-- The registry after the resources were announced. -/
  registry : ρ
  /-- What the classifier was shown, in order. -/
  examined : List (LumpName × Bytes) := []

namespace Container

/-! ## Opening -/

section Opening

variable {ρ : Type} [Registry ρ]

/-- Registers the lumps of an archive. -/
def openWad (context : OpenContext) (registry : ρ) (wad : WadContainer AnySource) : Opened ρ :=
  let (filings, wad, registry) := wad.register context registry
  ⟨.wad wad, registry, filings.filterMap (·.examined)⟩

/-- Opens an archive over any source. -/
def openWadSource (context : OpenContext) (registry : ρ) (source : AnySource) (id : ContainerId) :
    Opened ρ :=
  openWad context registry (.ofSource source id)

/-- Opens an archive of one map over any source; nothing is registered. -/
def openMapSource (source : AnySource) (id : ContainerId) (mapName : Option LumpName) : Container :=
  .mapWad (.ofSource source id mapName)

/-- Opens the archive of one map at a path; nothing is registered. -/
def openMapAt (disk : Disk) (path : FilePath) (id : ContainerId) : Container :=
  openMapSource (.stream (.openFile disk path)) id (LumpName.ofPath? path)

/-- Opens what is at a path as a container of the given kind. -/
def openAs (kind : ContainerKind) (disk : Disk) (context : OpenContext) (registry : ρ)
    (path : FilePath) (id : ContainerId) : Opened ρ :=
  match kind with
  | .looseFile =>
    let (file, registry) := LooseFile.openAt disk registry path id
    { container := .looseFile file, registry }
  | .wad =>
    let wad := WadContainer.ofSource (.stream (.openFile disk path)) id
    openWad context registry { wad with path := some path }
  | .mapWad => { container := openMapAt disk path id, registry }
  | .tree =>
    let (files, registry) := TreeContainer.openAt disk context.config registry path id
    { container := .tree files, registry }

/-- Opens what is at a path as the kind of container that fits it. -/
def openAt (disk : Disk) (context : OpenContext) (registry : ρ) (path : FilePath)
    (id : ContainerId) : Opened ρ :=
  openAs (.detect disk path) disk context registry path id

end Opening

/-! ## Asking -/

/-- The kind of the container. -/
def kind : Container → ContainerKind
  | looseFile _ => .looseFile
  | wad _ => .wad
  | mapWad _ => .mapWad
  | tree _ => .tree

/-- The id of the container. -/
def id : Container → ContainerId
  | looseFile file => file.id
  | wad archive => archive.id
  | mapWad map => map.wad.id
  | tree files => files.id

/-- How many resources the container holds. -/
def count : Container → Nat
  | looseFile file => file.count
  | wad archive => archive.count
  | mapWad map => map.wad.count
  | tree files => files.count

/-- The resources the container registered. -/
def resourceIds : Container → List ResourceId
  | looseFile file => file.resource.toList
  | wad archive => archive.resourceIds
  | mapWad _ => []
  | tree files => files.resourceIds

/-- The archive behind the container, if there is one. -/
def asWad? : Container → Option (WadContainer AnySource)
  | wad archive => some archive
  | mapWad map => some map.wad
  | looseFile _ | tree _ => none

/-- How many bytes a resource has; none if it is not served here. -/
def sizeOf (container : Container) (resource : ResourceId) : Nat :=
  match container with
  | looseFile file => file.sizeOf resource
  | wad archive => archive.sizeOf resource
  | mapWad map => map.wad.sizeOf resource
  | tree files => files.sizeOf resource

/-- At most `room` bytes of a resource. -/
def load (disk : Disk) (container : Container) (resource : ResourceId) (room : Nat) :
    Bytes × Container :=
  match container with
  | looseFile file => let (data, file) := file.load resource room; (data, looseFile file)
  | wad archive => let (data, archive) := archive.load resource room; (data, wad archive)
  | mapWad map =>
    let (data, archive) := map.wad.load resource room
    (data, mapWad { map with wad := archive })
  | tree files => (files.load disk resource room, tree files)

/-- All bytes of a resource. -/
def loadAll (disk : Disk) (container : Container) (resource : ResourceId) : Bytes × Container :=
  container.load disk resource (container.sizeOf resource)

/-- At most `room` bytes of a lump of the archive behind the container. -/
def loadLump (container : Container) (lump : LumpId) (room : Nat) : Option (Bytes × Container) :=
  match container with
  | wad archive =>
    let (data, archive) := archive.loadLump lump room
    some (data, wad archive)
  | mapWad map =>
    let (data, archive) := map.wad.loadLump lump room
    some (data, mapWad { map with wad := archive })
  | looseFile _ | tree _ => none

/-- The container after a file of the disk was written. -/
def written (container : Container) (file : NodeId) (content : Content) : Container :=
  match container with
  | looseFile loose => looseFile { loose with stream := loose.stream.written file content }
  | wad archive => wad { archive with source := archive.source.written file content }
  | mapWad map =>
    mapWad { map with wad := { map.wad with source := map.wad.source.written file content } }
  | tree files => tree files

end Container

end WadCatalog
