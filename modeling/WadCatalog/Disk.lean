import WadCatalog.Disk.Content
import WadCatalog.FilePath
import Std.Data.TreeMap

/-
  A disk: files, directories and links.

  Everything on the disk is a node, known by its number.  A directory names nodes, a link holds a
  path.  The number stays with a file however often it is written, and with a file that no directory
  names any more; whoever has a file open holds on to its number.

  A place on the disk is a node together with the directories above it (`Trail`), since `..` goes
  back the way that was really taken, links or not.  A path is followed step by step.  A link that
  is met on the way stands for the steps of its own path, and no more than forty links are followed
  for one path.

  Names and paths have a greatest length, counted in bytes (`nameLimit`, `pathLimit`).  A path is
  measured as it is written, whatever it leads to, so a file can be out of reach by one spelling of
  its path and within reach by another.

  A file may be there without the right to open it (`Disk.forbid`).  Its length can be asked for all
  the same, and so it is found where files are only looked for (`fileAt`), but it is neither read nor
  written.
-/

namespace WadCatalog

/-- The number of a node. -/
abbrev NodeId := Nat

/-- What is at one place of a disk. -/
inductive Node where
  /-- A file, and whether it may be opened. -/
  | file (content : Content) (allowed : Bool := true)
  /-- A directory, with its entries in the order of their names. -/
  | directory (entries : Std.TreeMap Bytes NodeId)
  /-- A link to a path, which is followed from the directory the link is in. -/
  | link (target : FilePath)

/-- A node and the directories above it, innermost first. -/
abbrev Trail := List NodeId

/-- A disk. -/
structure Disk where
  /-- The nodes by number.  Node zero is the root directory. -/
  nodes : Array Node
  /-- The directory that relative paths start in. -/
  workingDirectory : Trail

/-- Why something on a disk cannot be used. -/
inductive DiskError where
  /-- There is nothing at the path. -/
  | notFound
  /-- The path leads through something that is not a directory. -/
  | notDirectory
  /-- There is a directory where a file is wanted. -/
  | isDirectory
  /-- There is something already. -/
  | alreadyExists
  /-- The path leads through too many links. -/
  | tooManyLinks
  /-- The path, or a name in it, is too long. -/
  | nameTooLong
  /-- The file may not be opened. -/
  | permissionDenied
  /-- There is a zero byte in the path. -/
  | zeroByte
  deriving DecidableEq

namespace DiskError

/-- The error for a reader. -/
def message : DiskError → String
  | notFound => "No such file or directory (os error 2)"
  | notDirectory => "Not a directory (os error 20)"
  | isDirectory => "Is a directory (os error 21)"
  | alreadyExists => "File exists (os error 17)"
  | tooManyLinks => "Too many levels of symbolic links (os error 40)"
  | nameTooLong => "File name too long (os error 36)"
  | permissionDenied => "Permission denied (os error 13)"
  | zeroByte => "file name contained an unexpected NUL byte"

end DiskError

namespace Disk

/-- The root directory. -/
def root : Trail := [0]

/-- A disk with nothing but a root directory, where relative paths start. -/
def empty : Disk := ⟨#[.directory ∅], root⟩

/-- The node at the end of a trail. -/
def nodeAt? (disk : Disk) (trail : Trail) : Option Node := trail.head?.bind (disk.nodes[·]?)

/-- The entries of the directory at the end of a trail. -/
def entriesAt? (disk : Disk) (trail : Trail) : Option (Std.TreeMap Bytes NodeId) :=
  match disk.nodeAt? trail with
  | some (.directory entries) => some entries
  | _ => none

/-- The directory above; the root is above itself. -/
def above : Trail → Trail
  | _ :: parent :: rest => parent :: rest
  | trail => trail

/-- Where the steps of a path start. -/
def origin (base : Trail) (path : FilePath) : Trail := if path.isAbsolute then root else base

/-! ## Following a path -/

/-- How far steps lead without following a link. -/
inductive Reach where
  /-- To the end. -/
  | arrived (trail : Trail)
  /-- To a directory in which the last step names nothing. -/
  | absent (directory : Trail) (name : Bytes)
  /-- To a link that has to be followed; what is left are the steps behind it. -/
  | blocked (directory : Trail) (target : FilePath) (rest : List Bytes)
  /-- To something that ends the path. -/
  | failed (error : DiskError)

/-- How many bytes a name has at most. -/
def nameLimit : Nat := 255

/-- Takes steps up to the first link that has to be followed.  The last step follows a link only if
`follow` says so. -/
def advance (disk : Disk) (follow : Bool) (trail : Trail) : List Bytes → Reach
  | [] => .arrived trail
  | name :: rest =>
    match disk.entriesAt? trail with
    | none => .failed .notDirectory
    | some entries =>
      if name = [FilePath.dot] then advance disk follow trail rest
      else if name = [FilePath.dot, FilePath.dot] then advance disk follow (above trail) rest
      else if nameLimit < name.length then .failed .nameTooLong
      else match entries[name]? with
        | none => if rest = [] then .absent trail name else .failed .notFound
        | some id =>
          match disk.nodes[id]? with
          | some (.link target) =>
            if rest = [] ∧ follow = false then .arrived (id :: trail)
            else .blocked trail target rest
          | _ => advance disk follow (id :: trail) rest

/-- Takes steps and follows at most `links` links. -/
def reach (disk : Disk) (follow : Bool) : (links : Nat) → Trail → List Bytes → Reach
  | links, trail, steps =>
    match disk.advance follow trail steps, links with
    | .blocked _ _ _, 0 => .failed .tooManyLinks
    | .blocked directory target rest, links + 1 =>
      reach disk follow links (origin directory target) (target.steps ++ rest)
    | outcome, _ => outcome

/-- How many links may be followed for one path. -/
def linkLimit : Nat := 40

/-- How many bytes a path has at most. -/
def pathLimit : Nat := 4095

/-- What is wrong with a path by itself, whatever is on the disk. -/
def pathError? (path : FilePath) : Option DiskError :=
  if path.bytes = [] then some .notFound
  else if 0 ∈ path.bytes then some .zeroByte
  else if pathLimit < path.bytes.length then some .nameTooLong
  else none

/-- Follows a path from the working directory. -/
def find (disk : Disk) (follow : Bool) (path : FilePath) : Reach :=
  match pathError? path with
  | some error => .failed error
  | none => disk.reach follow linkLimit (origin disk.workingDirectory path) path.steps

/-- The place a path leads to. -/
def locate (disk : Disk) (follow : Bool) (path : FilePath) : Except DiskError Trail :=
  match disk.find follow path with
  | .arrived trail => .ok trail
  | .absent _ _ => .error .notFound
  | .blocked _ _ _ => .error .tooManyLinks
  | .failed error => .error error

/-! ## Reading -/

/-- Whether a path leads to a directory. -/
def isDirectory (disk : Disk) (path : FilePath) : Bool :=
  match disk.locate true path with
  | .ok trail => (disk.entriesAt? trail).isSome
  | .error _ => false

/-- The file a path leads to: its number, its content, and whether it may be opened. -/
def fileAt (disk : Disk) (path : FilePath) : Except DiskError (NodeId × Content × Bool) :=
  match disk.locate true path with
  | .error error => .error error
  | .ok trail =>
    match trail, disk.nodeAt? trail with
    | id :: _, some (.file content allowed) => .ok (id, content, allowed)
    | _, some (.directory _) => .error .isDirectory
    | _, _ => .error .notFound

/-- Opens the file a path leads to; gives its number and content. -/
def openFile (disk : Disk) (path : FilePath) : Except DiskError (NodeId × Content) :=
  match disk.fileAt path with
  | .error error => .error error
  | .ok (_, _, false) => .error .permissionDenied
  | .ok (id, content, true) => .ok (id, content)

/-- All bytes of the file a path leads to. -/
def readAll (disk : Disk) (path : FilePath) : Except DiskError Bytes :=
  (disk.openFile path).map fun (_, content) => content.bytes

/-! ## Writing -/

/-- Puts a new node into a directory. -/
def insert (disk : Disk) (directory : Trail) (name : Bytes) (node : Node) :
    Except DiskError (NodeId × Disk) :=
  match directory, disk.nodeAt? directory with
  | parent :: _, some (.directory entries) =>
    let id := disk.nodes.size
    let nodes := disk.nodes.setIfInBounds parent (.directory (entries.insert name id))
    .ok (id, { disk with nodes := nodes.push node })
  | _, _ => .error .notDirectory

/-- Writes a file: the one the path leads to, or a new one. -/
def writeFile (disk : Disk) (path : FilePath) (content : Content) :
    Except DiskError (NodeId × Disk) :=
  match disk.find true path with
  | .arrived trail =>
    match trail, disk.nodeAt? trail with
    | id :: _, some (.file _ true) =>
      .ok (id, { disk with nodes := disk.nodes.setIfInBounds id (.file content) })
    | _, some (.file _ false) => .error .permissionDenied
    | _, _ => .error .isDirectory
  | .absent directory name => disk.insert directory name (.file content)
  | .blocked _ _ _ => .error .tooManyLinks
  | .failed error => .error error

/-- Takes away the right to open the file that a path leads to. -/
def forbid (disk : Disk) (path : FilePath) : Except DiskError Disk :=
  match disk.fileAt path with
  | .error error => .error error
  | .ok (id, content, _) =>
    .ok { disk with nodes := disk.nodes.setIfInBounds id (.file content false) }

/-- Makes the directories that the steps name, as far as they are missing. -/
def makeDirectoriesFrom (disk : Disk) (trail : Trail) : List Bytes → Except DiskError (Trail × Disk)
  | [] => .ok (trail, disk)
  | name :: rest =>
    match disk.reach true linkLimit trail [name] with
    | .arrived next => makeDirectoriesFrom disk next rest
    | .absent directory name =>
      match disk.insert directory name (.directory ∅) with
      | .ok (id, disk) => makeDirectoriesFrom disk (id :: directory) rest
      | .error error => .error error
    | .blocked _ _ _ => .error .tooManyLinks
    | .failed error => .error error

/-- Makes a directory and the directories above it, as far as they are missing. -/
def makeDirectories (disk : Disk) (path : FilePath) : Except DiskError Disk :=
  (disk.makeDirectoriesFrom (origin disk.workingDirectory path) path.steps).map (·.2)

/-- Makes the directories above a path. -/
def makeParents (disk : Disk) (path : FilePath) : Except DiskError Disk :=
  (disk.makeDirectoriesFrom (origin disk.workingDirectory path) path.steps.dropLast).map (·.2)

/-- Makes a link where there is nothing yet. -/
def makeLink (disk : Disk) (path target : FilePath) : Except DiskError Disk :=
  match disk.find false path with
  | .arrived _ => .error .alreadyExists
  | .absent directory name => (disk.insert directory name (.link target)).map (·.2)
  | .blocked _ _ _ => .error .tooManyLinks
  | .failed error => .error error

/-- Takes what a path names out of its directory; a link is not followed. -/
def remove (disk : Disk) (path : FilePath) : Except DiskError Disk :=
  match disk.locate false path, path.fileName? with
  | .error error, _ => .error error
  | .ok (_ :: parent :: _), some name =>
    match disk.nodes[parent]? with
    | some (.directory entries) =>
      .ok { disk with nodes := disk.nodes.setIfInBounds parent (.directory (entries.erase name)) }
    | _ => .error .notDirectory
  | .ok _, _ => .error .isDirectory

end Disk

end WadCatalog
