import WadCatalog.ByteSource.Stream
import WadCatalog.Catalog
import WadCatalog.Container.Context
import WadCatalog.Lump.FileNames

/-
  Files that stand alone.

  A single file is a container with one resource, the whole file, in the global namespace.  It is
  named after the file, except that every DeHackEd patch is named `DEHACKED`; such a patch is known
  by its extension or by the line it starts with.
-/

namespace WadCatalog

/-- A container over a single file. -/
structure LooseFile where
  /-- The id of the container. -/
  id : ContainerId
  /-- Where the bytes come from. -/
  stream : Stream
  /-- The name of the lump. -/
  name : Option LumpName
  /-- The resource, if one was registered. -/
  resource : Option ResourceId

namespace LooseFile

/-! ## DeHackEd patches -/

/-- The name of every DeHackEd patch. -/
def dehackedName : LumpName := .ofText "DEHACKED"

/-- The line that a DeHackEd patch starts with. -/
def dehackedSignature : Bytes := Utf8.encode "Patch File for DeHackEd"

/-- The extensions of DeHackEd patches. -/
def dehackedExtensions : List String := ["deh", "bex"]

/-- Whether the extension of a path is that of a DeHackEd patch. -/
def hasDehackedExtension (path : FilePath) : Bool :=
  path.extension?.any fun extension =>
    dehackedExtensions.any (Ascii.equalIgnoringCase · (Utf8.decodeLossy extension))

/-- Whether a file is a DeHackEd patch, and the source after looking at its front. -/
def isDehacked {σ : Type} [ByteSource σ] (path : FilePath) (source : σ) : Bool × σ :=
  if hasDehackedExtension path then (true, source)
  else
    let (front, source) := ByteSource.readAt source 0 dehackedSignature.length
    (front = dehackedSignature, source)

/-! ## The container -/

/-- The name of a file, and the stream after looking at its front. -/
def nameOf (path : FilePath) (stream : Stream) : Option LumpName × Stream :=
  if ByteSource.isValid stream then
    let (dehacked, stream) := isDehacked path stream
    (if dehacked then some dehackedName else LumpName.ofPath? path, stream)
  else (none, stream)

/-- Opens the file at a path and registers it. -/
def openAt {ρ : Type} [Registry ρ] (disk : Disk) (registry : ρ) (path : FilePath)
    (id : ContainerId) : LooseFile × ρ :=
  let (name, stream) := nameOf path (.openFile disk path)
  match name with
  | none => (⟨id, stream, none, none⟩, registry)
  | some name =>
    let (resource, registry) :=
      Registry.addResource registry (Namespace.global.path.joinLump name) id
    (⟨id, stream, some name, some resource⟩, registry)

/-- One if the file could be opened, none otherwise. -/
def count (container : LooseFile) : Nat := if ByteSource.isValid container.stream then 1 else 0

/-- How many bytes a resource has; none if it is not served here. -/
def sizeOf (container : LooseFile) (resource : ResourceId) : Nat :=
  if container.resource = some resource then min (ByteSource.size container.stream) sizeLimit else 0

/-- At most `room` bytes of a resource. -/
def load (container : LooseFile) (resource : ResourceId) (room : Nat) : Bytes × LooseFile :=
  let count := min room (container.sizeOf resource)
  if count = 0 then ([], container)
  else
    let (data, stream) := ByteSource.readAt container.stream 0 count
    (data, { container with stream })

end LooseFile

end WadCatalog
