import WadCatalog.Command.Arguments
import WadCatalog.Command.Listing
import WadCatalog.Container
import WadCatalog.Digest.Md5

/-
  What the commands do.

  Every command opens one container into a fresh catalog and reports what came of it.  A command
  reads the disk and answers with the bytes of its output; only `extract` with a file to write to
  changes the disk.
-/

namespace WadCatalog.Command

/-- Why a command fails. -/
inductive Failure where
  /-- The configuration file cannot be read. -/
  | configUnreadable (path : FilePath) (error : DiskError)
  /-- The configuration file does not hold a configuration. -/
  | configInvalid (path : FilePath)
  /-- There is no resource at the address. -/
  | invalidPath (path : ResourcePath)
  /-- There is no archive at the path. -/
  | notArchive (path : FilePath)
  /-- The output file cannot be written. -/
  | unwritable (path : FilePath) (error : DiskError)
  deriving DecidableEq

namespace Failure

/-- The failure for a reader. -/
def message : Failure → String
  | configUnreadable path _ | configInvalid path => "Failed to load config " ++ path.text
  | invalidPath path => "Invalid path: " ++ path.text
  | notArchive path => path.text ++ " is not a WAD archive"
  | unwritable path _ => "Failed to write " ++ path.text

end Failure

/-! ## Listing -/

/-- The digest of a resource's bytes as it is listed. -/
def digestText (data : Bytes) : String := Bytes.toHex (Md5.digest data)

/-- A container that was opened into a fresh catalog. -/
def openFresh (disk : Disk) (config : Config) (path : FilePath) : Container × Catalog :=
  let (id, catalog) := Catalog.empty.allocateContainerId
  let opened := Container.openAt disk { config } catalog path id
  (opened.container, opened.registry)

/-- The rows of some entries of the catalog, read from the container one after another. -/
def resourceRows (disk : Disk) (checksums : Bool) (container : Container) :
    List CatalogEntry → List Row
  | [] => []
  | entry :: rest =>
    let size := container.sizeOf entry.id
    let path := entry.path.text
    if checksums then
      let (data, container) := container.loadAll disk entry.id
      ⟨entry.id.number, size, path, some (digestText data)⟩ ::
        resourceRows disk checksums container rest
    else ⟨entry.id.number, size, path, none⟩ :: resourceRows disk checksums container rest

/-- The resources of the container at a path. -/
def list (disk : Disk) (config : Config) (path : FilePath) (checksums : Bool) : List Row :=
  let (container, catalog) := openFresh disk config path
  resourceRows disk checksums container (catalog.resourcesOf container.id)

/-- The rows of some lumps of an archive, read from it one after another. -/
def lumpRows {σ : Type} [ByteSource σ] (base : ResourcePath) (checksums : Bool)
    (wad : WadContainer σ) : List (LumpEntry × LumpId) → List Row
  | [] => []
  | (entry, lump) :: rest =>
    let size := wad.lumpSize lump
    let path := (base.joinLump entry.name).text
    if checksums then
      let (data, wad) := wad.loadLump lump size
      ⟨lump, size, path, some (digestText data)⟩ :: lumpRows base checksums wad rest
    else ⟨lump, size, path, none⟩ :: lumpRows base checksums wad rest

/-- The lumps of the archive of one map at a path. -/
def listSingleMap (disk : Disk) (path : FilePath) (checksums : Bool) : List Row :=
  let map : MapWadContainer AnySource :=
    .ofSource (.stream (.openFile disk path)) ⟨0⟩ (LumpName.ofPath? path)
  lumpRows (map.mapPath?.getD .root) checksums map.wad map.wad.directory.indexed

/-! ## Extracting -/

/-- The latest resource whose address reads like the wanted one in any case. -/
def findIgnoringCase (catalog : Catalog) (wanted : ResourcePath) : Option ResourceId :=
  (catalog.entries.toList.reverse.find? fun entry =>
    Ascii.equalIgnoringCase entry.path.text wanted.text).map (·.id)

/-- The bytes of the resource at an address; an exact match comes before one in another case. -/
def extract (disk : Disk) (config : Config) (path : FilePath) (resource : String) :
    Except Failure Bytes :=
  let (container, catalog) := openFresh disk config path
  let wanted := ResourcePath.parse resource
  match (catalog.lookup? wanted).or (findIgnoringCase catalog wanted) with
  | some id => .ok (container.loadAll disk id).1
  | none => .error (.invalidPath wanted)

/-! ## Running -/

/-- The configuration of an invocation. -/
def configOf (disk : Disk) : Option FilePath → Except Failure Config
  | none => .ok {}
  | some path =>
    match disk.readAll path with
    | .error error => .error (.configUnreadable path error)
    | .ok bytes =>
      match Config.parse bytes with
      | some config => .ok config
      | none => .error (.configInvalid path)

/-- Carries out an invocation: gives the output and the disk afterwards. -/
def run (disk : Disk) (invocation : Invocation) : Except Failure (Bytes × Disk) := do
  let config ← configOf disk invocation.config
  match invocation.task with
  | .list path singleMap json checksums =>
    let rows :=
      if singleMap then listSingleMap disk path checksums else list disk config path checksums
    let text := if json then jsonArray rows ++ "\n" else table rows
    return (Utf8.encode text, disk)
  | .extract path resource output =>
    let data ← extract disk config path resource
    match output with
    | none => return (data, disk)
    | some file =>
      match disk.writeFile file (.ofBytes data) with
      | .ok (_, disk) => return ([], disk)
      | .error error => throw (.unwritable file error)
  | .markers path =>
    match (openFresh disk config path).1.asWad? with
    | some wad => return (Utf8.encode (markerTable wad.markers), disk)
    | none => throw (.notArchive path)

end WadCatalog.Command
