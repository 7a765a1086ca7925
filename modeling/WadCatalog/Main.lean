import WadCatalog.Command.Run

/-
  The program.

  The commands work on a `Disk`, which is a value.  So the program first copies what the command
  line names from the file system onto a disk of its own, then carries out the command on that disk,
  and at last writes the output, and the output file if there is one.

  A copy keeps the places of things.  Directories lie where they really lie, below the root, and a
  link leads to the true place of its target.  How far a directory is copied depends on the options,
  as only so much of it is walked.
-/

namespace WadCatalog.Program

/-- The disk that is being filled, and the directories copied so far with their depths. -/
structure Copy where
  /-- The disk. -/
  disk : Disk
  /-- The directories copied so far, and how many levels of each. -/
  directories : List (String × Nat) := []

/-- Fills a disk. -/
abbrev Copier := StateT Copy IO

/-- Changes the disk; a change that is not possible is left out. -/
def change (f : Disk → Except DiskError Disk) : Copier Unit := do
  let copy ← get
  match f copy.disk with
  | .ok disk => set { copy with disk }
  | .error _ => return

/-- The value of an action, if it succeeds. -/
def attempt {α : Type} (action : IO α) : IO (Option α) := do
  try
    return some (← action)
  catch _ =>
    return none

/-- The path of an entry of a directory. -/
def entryPath (directory name : String) : String :=
  if directory.endsWith "/" then directory ++ name else directory ++ "/" ++ name

/-- The type of what is at a path, links not followed. -/
def typeAt (path : String) : IO (Option IO.FS.FileType) := do
  let directory ← IO.currentDir
  return (← attempt (directory / path).symlinkMetadata).map (·.type)

/-- The true place of what is at a path. -/
def truePath (path : String) : IO (Option String) := do
  return (← attempt (IO.FS.realPath path)).map (·.toString)

/-- Copies a link, so that it leads to the true place of its target. -/
def copyLink (path : String) : Copier Unit := do
  if let some target ← truePath path then
    change fun disk => disk.makeLink (.ofText path) (.ofText target)

/-- The content of the file at a path, and whether it may be opened.  Without `contents` it is not
tried; then, and where it may not be opened, the content is zero bytes of the same number. -/
def contentAt (contents : Bool) (path : String) : IO (Option (Content × Bool)) := do
  let directory ← IO.currentDir
  let blank := (← attempt (directory / path).metadata).map fun data =>
    Content.blank data.byteSize.toNat
  if contents then
    match ← attempt (IO.FS.readBinFile path) with
    | some data => return some (.ofBytes data.toList, true)
    | none => return blank.map (·, false)
  else
    return blank.map (·, true)

/-- Copies what is at a true path: a file, or a directory with so many levels of entries.  With
`follow`, what links lead to is copied as well. -/
partial def copyNode (follow contents : Bool) (depth : Nat) (path : String) : Copier Unit := do
  match ← typeAt path with
  | some .file =>
    if let some (content, allowed) ← contentAt contents path then
      change fun disk => do
        let disk ← disk.makeParents (.ofText path)
        let (_, disk) ← disk.writeFile (.ofText path) content
        if allowed then return disk else disk.forbid (.ofText path)
  | some .dir =>
    change fun disk => disk.makeDirectories (.ofText path)
    let copied := (← get).directories
    unless copied.any fun (directory, levels) => directory == path && depth ≤ levels do
      modify fun copy => { copy with directories := (path, depth) :: copied }
      if 0 < depth then
        let directory ← IO.currentDir
        for entry in (← attempt (directory / path).readDir).getD #[] do
          copyNode follow contents (depth - 1) (entryPath path entry.fileName)
  | some .symlink =>
    copyLink path
    if follow then
      if let some target ← truePath path then copyNode follow contents depth target
  | _ => return

/-- Copies the directories and links that the steps of a path lead through, starting in a true
directory.  Gives the true place of the path, if there is something. -/
def copyWay (directory : String) : List Bytes → Copier (Option String)
  | [] => return some directory
  | step :: rest => do
    let name := Utf8.decodeLossy step
    let path := entryPath directory name
    if ← (·.isNone) <$> typeAt path then return none
    match ← truePath path with
    | none => return none
    | some place =>
      if name != "." && name != ".." then
        if let some .symlink ← typeAt path then copyLink path
      if let some .dir ← typeAt place then
        change fun disk => disk.makeDirectories (.ofText place)
      copyWay place rest

/-- Copies what a path leads to, with so many levels of entries if it is a directory.  The files in a
directory keep their contents only with `contents`. -/
def copyPath (follow contents : Bool) (depth : Nat) (path : FilePath) : Copier Unit := do
  let here ← IO.currentDir
  let some start ← truePath (if path.isAbsolute then "/" else here.toString) | return
  let some place ← copyWay start path.steps | return
  let isFile := (← typeAt place) matches some .file
  copyNode follow (contents || isFile) depth place

/-- The path of the container, and the path that is written to. -/
def pathsOf : Command.Task → FilePath × Option FilePath
  | .list path _ _ _ | .markers path => (path, none)
  | .extract path _ output => (path, output)

/-- Whether a task reads the files of a directory tree; otherwise it only asks for their lengths. -/
def readsFiles : Command.Task → Bool
  | .list _ _ _ checksums => checksums
  | .extract .. => true
  | .markers _ => false

/-- A disk with what the invocation names. -/
def copyDisk (invocation : Command.Invocation) : IO Disk := do
  let here := (← truePath (← IO.currentDir).toString).getD "/"
  let start : Disk := match Disk.empty.makeDirectoriesFrom Disk.root (FilePath.ofText here).steps with
    | .ok (trail, disk) => { disk with workingDirectory := trail }
    | .error _ => .empty
  let fill : Copier Unit := do
    if let some config := invocation.config then copyPath false true 0 config
    let config := match Command.configOf (← get).disk invocation.config with
      | .ok config => config
      | .error _ => {}
    let (path, output) := pathsOf invocation.task
    copyPath config.followLinks (readsFiles invocation.task) (max 1 config.maxDirectoryDepth) path
    if let some output := output then copyPath false true 0 output
  let ((), copy) ← fill.run { disk := start }
  return copy.disk

/-- Tells why the program fails. -/
def fail (message : String) : IO UInt32 := do
  IO.eprintln ("Error: " ++ message)
  return 1

/-- How the program is called. -/
def usage : String :=
  "Usage: wadcatalog [-v] [-c FILE] list PATH [--single-map] [--json] [--checksums]\n" ++
  "       wadcatalog [-v] [-c FILE] extract PATH RESOURCE [-o FILE]\n" ++
  "       wadcatalog [-v] [-c FILE] markers PATH"

/-- Carries out an invocation. -/
def run (invocation : Command.Invocation) : IO UInt32 := do
  let disk ← copyDisk invocation
  match Command.run disk invocation with
  | .error failure => fail failure.message
  | .ok (data, disk) =>
    let stdout ← IO.getStdout
    stdout.write data.toByteArray
    stdout.flush
    match (pathsOf invocation.task).2 with
    | none => return 0
    | some output =>
      match disk.readAll output with
      | .error error => fail (Command.Failure.unwritable output error).message
      | .ok written =>
        match ← attempt (IO.FS.writeBinFile output.text written.toByteArray) with
        | none => fail (Command.Failure.unwritable output .notFound).message
        | some () =>
          if invocation.verbose then
            IO.eprintln s!"Wrote {written.length} bytes to {output.text}"
          return 0

end WadCatalog.Program

/-- Reads the command line and carries it out. -/
def main (arguments : List String) : IO UInt32 := do
  match WadCatalog.Command.parse arguments with
  | some invocation => WadCatalog.Program.run invocation
  | none =>
    IO.eprintln WadCatalog.Program.usage
    return 2
