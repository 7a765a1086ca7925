import WadCatalog.FilePath

/-
  The arguments of the command line.

  The program has three commands, and two options that may stand before or behind the name of the
  command.  Options have a long name, and some have a letter.  Letters may be written together, and
  the value of an option may be attached to its name, with or without `=`, or be the next argument.
  Behind `--` every argument is positional.

  Whatever breaks these rules makes the whole command line unusable: unknown names, an option given
  twice at one level, a missing value or one too many positional arguments.
-/

namespace WadCatalog.Command

/-! ## Invocations -/

/-- What the program is asked to do. -/
inductive Task where
  /-- List the resources of a container. -/
  | list (path : FilePath) (singleMap json checksums : Bool)
  /-- Give the bytes of one resource. -/
  | extract (path : FilePath) (resource : String) (output : Option FilePath)
  /-- List the marker ranges of an archive. -/
  | markers (path : FilePath)
  deriving DecidableEq

/-- A command line. -/
structure Invocation where
  /-- Whether the program is to tell what it does. -/
  verbose : Bool
  /-- The configuration file. -/
  config : Option FilePath
  /-- What to do. -/
  task : Task
  deriving DecidableEq

/-! ## Options -/

/-- An option without a value. -/
inductive Switch where
  /-- Tell what is done. -/
  | verbose
  /-- Take the archive as that of one map. -/
  | singleMap
  /-- Write JSON. -/
  | json
  /-- Add digests. -/
  | checksums
  deriving DecidableEq

/-- An option with a value. -/
inductive Setting where
  /-- The configuration file. -/
  | config
  /-- The file to write to. -/
  | output
  deriving DecidableEq

namespace Switch

/-- The name behind two hyphens. -/
def name : Switch → String
  | verbose => "verbose"
  | singleMap => "single-map"
  | json => "json"
  | checksums => "checksums"

/-- The letter behind one hyphen. -/
def letter? : Switch → Option Char
  | verbose => some 'v'
  | singleMap | json | checksums => none

end Switch

namespace Setting

/-- The name behind two hyphens. -/
def name : Setting → String
  | config => "config"
  | output => "output"

/-- The letter behind one hyphen. -/
def letter : Setting → Char
  | config => 'c'
  | output => 'o'

end Setting

/-! ## One level -/

/-- What may be given before the name of the command, or behind it. -/
structure Level where
  /-- The options without a value. -/
  switches : List Switch
  /-- The options with a value. -/
  settings : List Setting
  /-- Whether the first positional argument ends the level. -/
  endsAtPositional : Bool

/-- What was given at one level. -/
structure Given where
  /-- The options without a value. -/
  switches : List Switch := []
  /-- The options with their values. -/
  settings : List (Setting × FilePath) := []
  /-- The positional arguments, last first. -/
  positionals : List String := []

namespace Given

/-- One more option without a value. -/
def addSwitch (given : Given) (switch : Switch) : Option Given :=
  if switch ∈ given.switches then none
  else some { given with switches := switch :: given.switches }

/-- One more option with a value.  All values are paths, and a path is not empty. -/
def addSetting (given : Given) (setting : Setting) (value : String) : Option Given :=
  if value = "" ∨ given.settings.any (·.1 = setting) then none
  else some { given with settings := (setting, .ofText value) :: given.settings }

/-- The value of an option. -/
def setting? (given : Given) (setting : Setting) : Option FilePath := given.settings.lookup setting

end Given

/-- The options of a cluster of letters, and the option that still needs a value. -/
def addLetters (level : Level) (given : Given) : List Char → Option (Given × Option Setting)
  | [] => some (given, none)
  | letter :: rest =>
    match level.settings.find? (·.letter = letter) with
    | some setting =>
      match rest with
      | [] => some (given, some setting)
      | '=' :: value => (given.addSetting setting (String.ofList value)).map (·, none)
      | value => (given.addSetting setting (String.ofList value)).map (·, none)
    | none =>
      match level.switches.find? (·.letter? = some letter) with
      | some switch => (given.addSwitch switch).bind fun given => addLetters level given rest
      | none => none

/-- The option of a long name, with the value attached to it if there is one. -/
def addLong (level : Level) (given : Given) (body : List Char) : Option (Given × Option Setting) :=
  let name := String.ofList (body.takeWhile (· != '='))
  let attached := body.dropWhile (· != '=')
  match level.settings.find? (·.name = name) with
  | some setting =>
    match attached with
    | [] => some (given, some setting)
    | _ :: value => (given.addSetting setting (String.ofList value)).map (·, none)
  | none =>
    match level.switches.find? (·.name = name) with
    | some switch => if attached = [] then (given.addSwitch switch).map (·, none) else none
    | none => none

/-- Reads the arguments of a level.  `pending` is an option that needs the next argument as its
value; a value does not start with a hyphen, unless it is nothing else.  Gives what was given and
the arguments that are left. -/
def readLevel (level : Level) :
    Given → (pending : Option Setting) → List String → Option (Given × List String)
  | given, none, [] => some (given, [])
  | _, some _, [] => none
  | given, some setting, argument :: rest =>
    match argument.toList with
    | '-' :: _ :: _ => none
    | _ => (given.addSetting setting argument).bind fun given => readLevel level given none rest
  | given, none, argument :: rest =>
    match argument.toList with
    | ['-', '-'] =>
      if level.endsAtPositional then none
      else some ({ given with positionals := rest.reverse ++ given.positionals }, [])
    | '-' :: '-' :: body =>
      match addLong level given body with
      | some (given, pending) => readLevel level given pending rest
      | none => none
    | '-' :: letter :: letters =>
      match addLetters level given (letter :: letters) with
      | some (given, pending) => readLevel level given pending rest
      | none => none
    | _ =>
      if level.endsAtPositional then some (given, argument :: rest)
      else readLevel level { given with positionals := argument :: given.positionals } none rest

/-! ## The whole command line -/

/-- What may stand before the name of the command. -/
def topLevel : Level := ⟨[.verbose], [.config], true⟩

/-- What may stand behind `list`. -/
def listLevel : Level := ⟨[.verbose, .singleMap, .json, .checksums], [.config], false⟩

/-- What may stand behind `extract`. -/
def extractLevel : Level := ⟨[.verbose], [.config, .output], false⟩

/-- What may stand behind `markers`. -/
def markersLevel : Level := ⟨[.verbose], [.config], false⟩

/-- A path given as a positional argument. -/
def path? (argument : String) : Option FilePath :=
  if argument = "" then none else some (.ofText argument)

/-- The task of a command with what was given behind its name. -/
def task? (command : String) (given : Given) : Option Task :=
  match command, given.positionals.reverse with
  | "list", [path] => (path? path).map fun path =>
    .list path (Switch.singleMap ∈ given.switches) (Switch.json ∈ given.switches)
      (Switch.checksums ∈ given.switches)
  | "extract", [path, resource] => (path? path).map fun path =>
    .extract path resource (given.setting? .output)
  | "markers", [path] => (path? path).map .markers
  | _, _ => none

/-- What may stand behind the name of a command. -/
def level? : String → Option Level
  | "list" => some listLevel
  | "extract" => some extractLevel
  | "markers" => some markersLevel
  | _ => none

/-- The invocation that the arguments stand for.  Of an option given at both levels, the one behind
the name of the command counts. -/
def parse (arguments : List String) : Option Invocation := do
  let (top, rest) ← readLevel topLevel {} none arguments
  match rest with
  | [] => none
  | command :: rest =>
    let level ← level? command
    let (given, _) ← readLevel level {} none rest
    let task ← task? command given
    return {
      verbose := Switch.verbose ∈ top.switches ∨ Switch.verbose ∈ given.switches
      config := (given.setting? .config).or (top.setting? .config)
      task }

example : parse ["list", "a.wad", "--json"] =
    some ⟨false, none, .list (.ofText "a.wad") false true false⟩ := by decide
example : parse ["-vc", "x", "markers", "--", "-m"] =
    some ⟨true, some (.ofText "x"), .markers (.ofText "-m")⟩ := by decide
example : parse ["list", "a", "--json", "--json"] = none := by decide
example : parse ["extract", "a", "", "-o=b"] =
    some ⟨false, none, .extract (.ofText "a") "" (some (.ofText "b"))⟩ := by decide

end WadCatalog.Command
