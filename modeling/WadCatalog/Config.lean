import WadCatalog.Json.Value

/-
  Options of containers.

  Every option has a default.  A configuration file is JSON: an object that names some of the
  options, or an array that gives the first few of them in the order below.  Options that are not
  known are skipped, whatever their value; a known option must have a value of its type and must
  not be named twice.
-/

namespace WadCatalog

/-- The options shared by all kinds of container. -/
structure Config where
  /-- How deep a directory tree is walked. -/
  maxDirectoryDepth : Nat := 16
  /-- The directory whose files keep their names. -/
  scriptsDirectory : String := "SCRIPTS"
  /-- Whether lumps without a namespace are shown to the classifier. -/
  classifyByContent : Bool := true
  /-- Whether links in a directory tree are followed. -/
  followLinks : Bool := false
  deriving DecidableEq

namespace Config

/-! ## Values of options -/

/-- The number written by plain digits. -/
def digitsValue (digits : Bytes) : Nat :=
  digits.foldl (fun value digit => value * 10 + (digit.toNat - 0x30)) 0

/-- A whole number that fits in sixty-four bits, written with digits alone. -/
def depth? : Json.Value → Option Nat
  | .number digits =>
    if digits.all Json.NumberPart.isDigit ∧ digitsValue digits < UInt64.size then
      some (digitsValue digits)
    else none
  | _ => none

/-- A text. -/
def text? : Json.Value → Option String
  | .string quoted => quoted.text?
  | _ => none

/-- A truth value. -/
def flag? : Json.Value → Option Bool
  | .bool value => some value
  | _ => none

/-! ## Objects -/

/-- The options named so far. -/
structure Partial where
  /-- How deep a directory tree is walked. -/
  maxDirectoryDepth : Option Nat := none
  /-- The directory whose files keep their names. -/
  scriptsDirectory : Option String := none
  /-- Whether lumps without a namespace are shown to the classifier. -/
  classifyByContent : Option Bool := none
  /-- Whether links in a directory tree are followed. -/
  followLinks : Option Bool := none

/-- The value of an option that has no value yet. -/
def fresh? {α : Type} (before : Option α) (value : Option α) : Option (Option α) :=
  if before.isSome then none else value.map some

/-- The options after one more member of the object. -/
def Partial.member (options : Partial) (key : Json.Quoted) (value : Json.Value) : Option Partial :=
  match key.text? with
  | none => none
  | some "max_directory_depth" =>
    (fresh? options.maxDirectoryDepth (depth? value)).map fun value =>
      { options with maxDirectoryDepth := value }
  | some "scripts_directory" =>
    (fresh? options.scriptsDirectory (text? value)).map fun value =>
      { options with scriptsDirectory := value }
  | some "classify_by_content" =>
    (fresh? options.classifyByContent (flag? value)).map fun value =>
      { options with classifyByContent := value }
  | some "follow_links" =>
    (fresh? options.followLinks (flag? value)).map fun value =>
      { options with followLinks := value }
  | some _ => some options

/-- The configuration with defaults for what was not named. -/
def Partial.filled (options : Partial) : Config :=
  let default : Config := {}
  { maxDirectoryDepth := options.maxDirectoryDepth.getD default.maxDirectoryDepth
    scriptsDirectory := options.scriptsDirectory.getD default.scriptsDirectory
    classifyByContent := options.classifyByContent.getD default.classifyByContent
    followLinks := options.followLinks.getD default.followLinks }

/-! ## Arrays -/

/-- The option at the front of a list of values: its value or the default, and the other values. -/
def take? {α : Type} (read : Json.Value → Option α) (default : α) :
    List Json.Value → Option (α × List Json.Value)
  | [] => some (default, [])
  | value :: rest => (read value).map fun value => (value, rest)

/-- The configuration given by values in order. -/
def ofItems? (items : List Json.Value) : Option Config := do
  let default : Config := {}
  let (maxDirectoryDepth, items) ← take? depth? default.maxDirectoryDepth items
  let (scriptsDirectory, items) ← take? text? default.scriptsDirectory items
  let (classifyByContent, items) ← take? flag? default.classifyByContent items
  let (followLinks, items) ← take? flag? default.followLinks items
  if items.isEmpty then
    some { maxDirectoryDepth, scriptsDirectory, classifyByContent, followLinks }
  else none

/-! ## Files -/

/-- The configuration that a JSON value gives. -/
def ofJson? : Json.Value → Option Config
  | .object members =>
    (members.foldlM (fun options (key, value) => Partial.member options key value) {}).map
      Partial.filled
  | .array items => ofItems? items
  | _ => none

/-- The configuration in the bytes of a file. -/
def parse (bytes : Bytes) : Option Config := (Json.parse bytes).bind ofJson?

end Config

end WadCatalog
