import WadCatalog.ByteSource.Stream
import WadCatalog.Catalog.IdMap
import WadCatalog.Container.Context
import WadCatalog.Disk.Walk
import WadCatalog.Lump.FileNames

/-
  Directory trees as containers.

  Every file under a directory becomes a resource.  Its address follows the way to the file, with
  directories in upper case and the file named like a lump; files below the scripts directory keep
  their names.  Files without a name left are skipped.

  Nothing is kept of a file but its path and its length.  Each load opens the file again, and so
  gives what the file holds by then, but never more than the length recorded at first.
-/

namespace WadCatalog

/-- A file of a directory tree. -/
structure FileEntry where
  /-- Where the file is. -/
  path : FilePath
  /-- The address of the resource. -/
  resourcePath : ResourcePath
  /-- The length of the file when the tree was opened. -/
  length : Nat
  deriving DecidableEq

namespace ResourcePath

/-- The address of the file that the given names lead to, if a name is left for it. -/
def ofFile? (config : Config) (names : List String) : Option ResourcePath :=
  match names.getLast? with
  | none => none
  | some fileName =>
    let directories := names.dropLast
    let above : ResourcePath := ⟨directories.map Ascii.upper⟩
    if directories.head?.any (Ascii.equalIgnoringCase · config.scriptsDirectory) then
      if fileName = "" then none else some (above.join fileName)
    else (LumpName.ofFileName? fileName).map above.joinLump

/-- The address of the file at a path below the root of a tree. -/
def ofFilePath? (config : Config) (path : FilePath) : Option ResourcePath :=
  ofFile? config (path.components.map FilePath.Component.text)

end ResourcePath

/-- A container over a directory tree. -/
structure TreeContainer where
  /-- The id of the container. -/
  id : ContainerId
  /-- The root of the tree. -/
  root : FilePath
  /-- The registered files in the order they were found. -/
  entries : Array FileEntry
  /-- Which file serves which resource. -/
  lookup : IdMap

namespace TreeContainer

/-- The files of a tree that have an address, in the order of a walk. -/
def survey (disk : Disk) (config : Config) (root : FilePath) : List FileEntry :=
  (disk.walk config.followLinks config.maxDirectoryDepth root).filterMap fun found =>
    (ResourcePath.ofFile? config (found.names.map Utf8.decodeLossy)).map fun path =>
      ⟨root.descend found.names, path, found.length⟩

/-- Opens the tree at a path and registers its files. -/
def openAt {ρ : Type} [Registry ρ] (disk : Disk) (config : Config) (registry : ρ)
    (root : FilePath) (id : ContainerId) : TreeContainer × ρ :=
  let entries := survey disk config root
  let (lookup, registry) := IdMap.announce id .empty registry
    (entries.zipIdx.map fun (entry, lump) => (lump, entry.resourcePath))
  (⟨id, root, entries.toArray, lookup⟩, registry)

/-- How many files are registered. -/
def count (container : TreeContainer) : Nat := container.entries.size

/-- The registered resources in the order they were found. -/
def resourceIds (container : TreeContainer) : List ResourceId := container.lookup.resourceIds

/-- The file that serves a resource. -/
def entry? (container : TreeContainer) (resource : ResourceId) : Option FileEntry :=
  (container.lookup.lumpOf? resource).bind (container.entries[·]?)

/-- How many bytes a resource had when the tree was opened; none if it is not served here. -/
def sizeOf (container : TreeContainer) (resource : ResourceId) : Nat :=
  match container.entry? resource with
  | some entry => min entry.length sizeLimit
  | none => 0

/-- At most `room` bytes of a resource, as the disk holds it now. -/
def load (disk : Disk) (container : TreeContainer) (resource : ResourceId) (room : Nat) : Bytes :=
  match container.entry? resource with
  | some entry =>
    let count := min room (container.sizeOf resource)
    if count = 0 then [] else (ByteSource.readAt (Stream.openFile disk entry.path) 0 count).1
  | none => []

example : (ResourcePath.ofFilePath? {} (.ofText "sounds/boom.wav")).map (·.text) =
    some "/SOUNDS/BOOM" := by decide
example : (ResourcePath.ofFilePath? {} (.ofText "scripts/intro.txt")).map (·.text) =
    some "/SCRIPTS/intro.txt" := by decide
example : (ResourcePath.ofFilePath? {} (.ofText "maps/scripts/intro.txt")).map (·.text) =
    some "/MAPS/SCRIPTS/INTRO" := by decide
example : ResourcePath.ofFilePath? {} (.ofText "sounds/.hidden") = none := by decide

end TreeContainer

end WadCatalog
