import WadCatalog.FilePath
import WadCatalog.Lump.Name

/-
  Lumps named after files.

  A file becomes a lump under a name taken from its own.  Inside a directory tree everything from
  the first `.` on is dropped, so that `archive.tar.gz` is `ARCHIVE`; a file that stands alone, or a
  map's archive, loses only its last extension, so that `v1.2.lmp` is `V1.2`.
-/

namespace WadCatalog.LumpName

/-- The part of a file name before its first `.`. -/
def beforeFirstDot (fileName : String) : String :=
  String.ofList (fileName.toList.takeWhile (· != '.'))

/-- The name of the lump that an entry of a directory tree becomes, if anything is left of it. -/
def ofFileName? (fileName : String) : Option LumpName :=
  let stem := beforeFirstDot fileName
  if stem = "" then none else some (ofText stem)

/-- The name of the lump that a file becomes, if the path has a base name. -/
def ofPath? (path : FilePath) : Option LumpName :=
  path.stem?.map fun stem => ofText (Utf8.decodeLossy stem)

example : (ofFileName? "archive.tar.gz").map text = some "ARCHIVE" := by decide
example : ofFileName? ".hidden" = none := by decide
example : (ofPath? (.ofText "v1.2.lmp")).map text = some "V1.2" := by decide
example : ofPath? (.ofText "/") = none := by decide

end WadCatalog.LumpName
