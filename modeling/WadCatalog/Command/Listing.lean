import WadCatalog.Text.Ascii
import WadCatalog.Text.Columns
import WadCatalog.Lump.Directory
import WadCatalog.Marker.Table

/-
  How listings are written.

  A listing of resources is a table with aligned columns, or a JSON array of objects, indented by
  two spaces a level.  A listing of marker ranges is always a table.
-/

namespace WadCatalog.Command

/-- One resource of a listing. -/
structure Row where
  /-- The id of the resource. -/
  id : Nat
  /-- How many bytes it has. -/
  size : Nat
  /-- Its address. -/
  path : String
  /-- The digest of its bytes, if wanted. -/
  md5 : Option String
  deriving DecidableEq

namespace Row

/-- The row as a line of a table. -/
def line (row : Row) : String :=
  let digest := row.md5.elim "" (· ++ " ")
  Text.alignRight 5 (toString row.id) ' ' ++ " " ++ Text.alignRight 9 (toString row.size) ' ' ++
    " " ++ digest ++ row.path ++ "\n"

/-- A character inside a JSON string. -/
def jsonChar (c : Char) : List Char :=
  match c with
  | '"' => ['\\', '"']
  | '\\' => ['\\', '\\']
  | '\x08' => ['\\', 'b']
  | '\x0c' => ['\\', 'f']
  | '\n' => ['\\', 'n']
  | '\r' => ['\\', 'r']
  | '\t' => ['\\', 't']
  | c =>
    if c.toNat < 0x20 then ['\\', 'u', '0', '0'] ++ Bytes.hexPair (UInt8.ofNat c.toNat) else [c]

/-- A text as a JSON string. -/
def jsonText (text : String) : String :=
  String.ofList ('"' :: text.toList.flatMap jsonChar ++ ['"'])

/-- The members of the JSON object of the row. -/
def jsonMembers (row : Row) : List String :=
  [ "\"id\": " ++ toString row.id,
    "\"size\": " ++ toString row.size,
    "\"path\": " ++ jsonText row.path ] ++
  row.md5.toList.map ("\"md5\": " ++ jsonText ·)

/-- The JSON object of the row, indented by one level. -/
def json (row : Row) : String :=
  "  \x7b\n" ++ ",\n".intercalate (row.jsonMembers.map ("    " ++ ·)) ++ "\n  \x7d"

end Row

/-- The rows as a table. -/
def table (rows : List Row) : String := String.join (rows.map Row.line)

/-- The rows as a JSON array. -/
def jsonArray (rows : List Row) : String :=
  if rows = [] then "[]" else "[\n" ++ ",\n".intercalate (rows.map Row.json) ++ "\n]"

/-- A marker range as a line of a table. -/
def markerLine (label : String) (range : MarkerRange) : String :=
  Text.alignLeft 8 label ++ " " ++ range.start.elim "-" LumpId.text ++ ".." ++
    LumpId.text range.finish ++ "\n"

/-- The marker ranges as a table. -/
def markerTable (markers : MarkerTable) : String :=
  String.join (markers.toList.map fun (label, range) => markerLine label range)

example : (⟨3, 14, "/A", some "ff"⟩ : Row).line = "    3        14 ff /A\n" := by decide
example : markerLine "F" ⟨some 1, 3⟩ = "F        00001..00003\n" := by decide
example : Row.jsonText "a\"\x01" = "\"a\\\"\\u0001\"" := by decide

end WadCatalog.Command
