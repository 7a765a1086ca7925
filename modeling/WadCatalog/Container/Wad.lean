import WadCatalog.Archive.Table
import WadCatalog.ByteSource
import WadCatalog.Catalog.IdMap
import WadCatalog.Container.Context
import WadCatalog.FilePath

/-
  Archives as containers.

  Opening an archive has two parts.  Reading (`ofSource`) takes the header and the table from the
  source, and builds the marker table; an archive that is rejected becomes a container without
  lumps.  Registering (`register`) decides for every lump inside the source where it is filed, in
  the order of the table, and then announces the lumps in that order.  What the decisions are is a
  list of `Filing`s, so that it can be looked at apart from the registry.

  Afterwards the container only serves reads.  All of them share the cursor of the one source, which
  is why each read seeks first.
-/

namespace WadCatalog

/-- A container over an archive. -/
structure WadContainer (σ : Type) where
  /-- The id of the container. -/
  id : ContainerId
  /-- The file the archive was opened from. -/
  path : Option FilePath
  /-- Where the bytes come from. -/
  source : σ
  /-- The kind of archive; none if it was rejected. -/
  kind : Option Archive.Kind
  /-- The lumps of the archive. -/
  directory : LumpDirectory
  /-- The ranges between markers. -/
  markers : MarkerTable
  /-- Which lump serves which resource. -/
  lookup : IdMap
  /-- How many lumps lie inside the source. -/
  count : Nat

namespace WadContainer

variable {σ : Type} [ByteSource σ]

/-! ## Reading the archive -/

/-- Why an archive cannot be read from a source. -/
inductive Failure where
  /-- There is no stream behind the source. -/
  | unavailable
  /-- The archive is rejected. -/
  | rejected (cause : Archive.Rejection)
  deriving DecidableEq

/-- Reads the kind and the directory of the archive in a source. -/
def readDirectory (source : σ) : Except Failure (Archive.Kind × LumpDirectory) × σ :=
  if ByteSource.isValid source then
    let (front, source) := ByteSource.readAt source 0 Archive.Header.width
    match Archive.Header.parse front with
    | .error cause => (.error (.rejected cause), source)
    | .ok header =>
      match header.validate (ByteSource.size source) with
      | .error cause => (.error (.rejected cause), source)
      | .ok kind =>
        let (table, source) := ByteSource.readAt source header.tableStart header.tableLength
        match Archive.readTable table header.recordCount with
        | .error cause => (.error (.rejected cause), source)
        | .ok directory => (.ok (kind, directory), source)
  else (.error .unavailable, source)

/-- The container over a source, with nothing registered. -/
def ofSource (source : σ) (id : ContainerId) : WadContainer σ :=
  let (outcome, source) := readDirectory source
  let (kind, directory) := match outcome with
    | .ok (kind, directory) => (some kind, directory)
    | .error _ => (none, LumpDirectory.empty)
  { id, path := none, source, kind, directory
    markers := .build directory
    lookup := .empty
    count := directory.countWithin (ByteSource.size source) }

/-! ## Filing the lumps -/

/-- Where a lump is filed. -/
structure Filing where
  /-- The lump. -/
  lump : LumpId
  /-- The namespace that its map or the markers around it give it, if either does. -/
  claimed : Option Namespace
  /-- Its address. -/
  path : ResourcePath
  /-- The name and the bytes that the classifier was shown, if it was asked. -/
  examined : Option (LumpName × Bytes)
  deriving DecidableEq

/-- The directory of a lump that no map and no marker claims, what the classifier was shown, and the
source after reading the lump.  A lump that cannot be read whole is not classified. -/
def identify (context : OpenContext) (source : σ) (entry : LumpEntry) :
    ResourcePath × Option (LumpName × Bytes) × σ :=
  if context.config.classifyByContent then
    match ByteSource.seek source entry.position with
    | (false, source) => (Namespace.global.path, none, source)
    | (true, source) =>
      let (data, source) := ByteSource.read source entry.size
      if data.length = entry.size then
        (context.classifier entry.name data, some (entry.name, data), source)
      else (Namespace.global.path, none, source)
  else (Namespace.global.path, none, source)

/-- Files the lumps of a list in order, leaving out those that do not lie inside the source. -/
def fileLumps (context : OpenContext) (directory : LumpDirectory) (markers : MarkerTable)
    (placer : Placer) (source : σ) : List (LumpEntry × LumpId) → List Filing × σ
  | [] => ([], source)
  | (entry, id) :: rest =>
    if entry.fitsWithin (ByteSource.size source) then
      let (space, placer) := placer.place directory markers id
      let (above, examined, source) := match space with
        | some space => (space.path, none, source)
        | none => identify context source entry
      let (filings, source) := fileLumps context directory markers placer source rest
      (⟨id, space, above.joinLump entry.name, examined⟩ :: filings, source)
    else fileLumps context directory markers placer source rest

/-- Where the lumps of the container are filed, and the container after reading them. -/
def filings (context : OpenContext) (container : WadContainer σ) : List Filing × WadContainer σ :=
  let (filings, source) := fileLumps context container.directory container.markers .start
    container.source container.directory.indexed
  (filings, { container with source })

/-- Files the lumps and announces them in order. -/
def register {ρ : Type} [Registry ρ] (context : OpenContext) (registry : ρ)
    (container : WadContainer σ) : List Filing × WadContainer σ × ρ :=
  let (filings, container) := container.filings context
  let (lookup, registry) := IdMap.announce container.id container.lookup registry
    (filings.map fun filing => (filing.lump, filing.path))
  (filings, { container with lookup }, registry)

/-! ## Asking the container -/

/-- Whether the archive is a complete game. -/
def isIwad (container : WadContainer σ) : Bool := container.kind = some .iwad

/-- The registered resources in the order of their lumps. -/
def resourceIds (container : WadContainer σ) : List ResourceId := container.lookup.resourceIds

/-- The last lump of the given name. -/
def findLump? (container : WadContainer σ) (name : LumpName) : Option LumpId :=
  container.directory.find? name

/-- How many bytes a lump has; none if it is unknown or does not lie inside the source. -/
def lumpSize (container : WadContainer σ) (lump : LumpId) : Nat :=
  match container.directory.get? lump with
  | some entry => if entry.fitsWithin (ByteSource.size container.source) then entry.size else 0
  | none => 0

/-- At most `room` bytes of a lump. -/
def loadLump (container : WadContainer σ) (lump : LumpId) (room : Nat) : Bytes × WadContainer σ :=
  let count := min room (container.lumpSize lump)
  match container.directory.get? lump with
  | some entry =>
    if count = 0 then ([], container)
    else
      let (data, source) := ByteSource.readAt container.source entry.position count
      (data, { container with source })
  | none => ([], container)

/-- How many bytes a resource has; none if it is not served here. -/
def sizeOf (container : WadContainer σ) (resource : ResourceId) : Nat :=
  match container.lookup.lumpOf? resource with
  | some lump => container.lumpSize lump
  | none => 0

/-- At most `room` bytes of a resource. -/
def load (container : WadContainer σ) (resource : ResourceId) (room : Nat) :
    Bytes × WadContainer σ :=
  match container.lookup.lumpOf? resource with
  | some lump => container.loadLump lump room
  | none => ([], container)

end WadContainer

end WadCatalog
