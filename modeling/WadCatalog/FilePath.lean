import WadCatalog.Delimited
import WadCatalog.Text.Utf8

/-
  Paths of files.

  A file path is a byte string in which `/` separates names.  It is kept as it was written, because
  it is shown that way, and taken apart on demand:

    * a leading `/` is a part of its own, the root;
    * repeated and trailing separators count for nothing;
    * `.` counts only at the front of a relative path;
    * `..` is kept, since what it means depends on the links on the way.

  The base name of a file splits at its last `.` into stem and extension, but a `.` at its very
  front is part of the stem.
-/

namespace WadCatalog

/-- A path of a file or directory, as it was written. -/
structure FilePath where
  /-- The bytes of the path. -/
  bytes : Bytes
  deriving DecidableEq

namespace FilePath

/-- The byte `/`. -/
def separator : UInt8 := 0x2f

/-- The byte `.`. -/
def dot : UInt8 := 0x2e

/-- One part of a path. -/
inductive Component where
  /-- The root of all directories. -/
  | root
  /-- The directory itself, `.`. -/
  | current
  /-- The directory above, `..`. -/
  | parent
  /-- An entry of the directory so far. -/
  | named (name : Bytes)
  deriving DecidableEq

/-- The bytes a part is written with. -/
def Component.bytes : Component → Bytes
  | .root => [separator]
  | .current => [dot]
  | .parent => [dot, dot]
  | .named name => name

/-- A part as text. -/
def Component.text (component : Component) : String := Utf8.decodeLossy component.bytes

/-- The path written by a text. -/
def ofText (text : String) : FilePath := ⟨Utf8.encode text⟩

/-- The path as text. -/
def text (path : FilePath) : String := Utf8.decodeLossy path.bytes

/-! ## Parts -/

/-- Whether the path starts at the root. -/
def isAbsolute (path : FilePath) : Bool := path.bytes.head? == some separator

/-- The part a piece between separators stands for, if it stands for one. -/
def component? (piece : Bytes) : Option Component :=
  if piece = [] ∨ piece = [dot] then none
  else if piece = [dot, dot] then some .parent
  else some (.named piece)

/-- The parts of a path in order. -/
def components (path : FilePath) : List Component :=
  let pieces := Delimited.pieces separator path.bytes
  let front : List Component :=
    if path.isAbsolute then [.root]
    else if pieces.head? = some [dot] then [.current]
    else []
  front ++ pieces.filterMap component?

/-- The base name: the last part, if that names an entry. -/
def fileName? (path : FilePath) : Option Bytes :=
  match path.components.getLast? with
  | some (.named name) => some name
  | _ => none

/-! ## Steps

A file system takes a path step by step.  Unlike the parts above, its steps keep every `.`, because
even that step needs a directory to stand in, and so does a separator at the end.
-/

/-- The steps from the starting directory on. -/
def steps (path : FilePath) : List Bytes :=
  let names := (Delimited.pieces separator path.bytes).filter (· != [])
  if names ≠ [] ∧ path.bytes.getLast? = some separator then names ++ [[dot]] else names

/-! ## Stem and extension -/

/-- A base name without its extension, and the extension if there is one. -/
def splitExtension (name : Bytes) : Bytes × Option Bytes :=
  match Delimited.splitLast? dot name with
  | none => (name, none)
  | some ([], _) => (name, none)
  | some (stem, extension) => (stem, some extension)

/-- The base name without its extension. -/
def stem? (path : FilePath) : Option Bytes := path.fileName?.map fun name => (splitExtension name).1

/-- What follows the last `.` of the base name. -/
def extension? (path : FilePath) : Option Bytes :=
  path.fileName?.bind fun name => (splitExtension name).2

/-! ## Going down -/

/-- The path of an entry of the directory at `path`. -/
def child (path : FilePath) (name : Bytes) : FilePath :=
  if path.bytes = [] ∨ path.bytes.getLast? = some separator then ⟨path.bytes ++ name⟩
  else ⟨path.bytes ++ separator :: name⟩

/-- The path of what lies under `path` along the given names. -/
def descend (path : FilePath) (names : List Bytes) : FilePath := names.foldl child path

example : (ofText "maps/./map01.v2.wad").stem? = some (Utf8.encode "map01.v2") := by decide
example : (ofText "a/b/").fileName? = some (Utf8.encode "b") := by decide
example : (ofText "a/..").fileName? = none := by decide
example : (ofText ".hidden").extension? = none := by decide
example : (ofText "./a//../b").components =
    [.current, .named (Utf8.encode "a"), .parent, .named (Utf8.encode "b")] := by decide
example : ((ofText "root/").child (Utf8.encode "a")).text = "root/a" := by decide

end FilePath

end WadCatalog
