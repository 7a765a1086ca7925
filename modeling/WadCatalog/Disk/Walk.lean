import WadCatalog.Disk

/-
  Walking a directory tree.

  A walk lists the files under a directory, down to a given depth.  Entries come in the order of
  their names, and what lies in a directory comes at the place of the directory.

  Links are left out, unless the walk follows them.  A link that is followed counts as what it leads
  to, except that nothing comes of a link that leads nowhere, or back to a directory the walk is in.

  A file is only asked for its length, so it is found whether it may be opened or not.

  Each entry is taken by its whole path, which is the root as it was given with the names behind it.
  So nothing comes of an entry whose path is too long, or of a link that is one link too many on its
  path, the links on the way to it counted.
-/

namespace WadCatalog.Disk

/-- A file found by a walk. -/
structure Found where
  /-- The names that lead to the file from the root of the walk. -/
  names : List Bytes
  /-- The length of the file. -/
  length : Nat
  deriving DecidableEq

/-- Where an entry of a directory leads, and whether through a link.  The entry has the given path
and node.  Without `follow` a link leads nowhere. -/
def entryTrail? (disk : Disk) (follow : Bool) (directory : Trail) (path : FilePath) (id : NodeId) :
    Option (Trail × Bool) :=
  match disk.nodes[id]? with
  | none => none
  | some (.link _) =>
    if follow then
      match disk.locate true path with
      | .ok trail => some (trail, true)
      | .error _ => none
    else none
  | some _ => if (pathError? path).isSome then none else some (id :: directory, false)

/-- The files under the directory with the given path, at the end of `directory`, at most `depth`
levels down.  The walk is already in the directories `around`. -/
def walkFrom (disk : Disk) (follow : Bool) :
    (depth : Nat) → (around : List NodeId) → (directory : Trail) → (path : FilePath) → List Found
  | 0, _, _, _ => []
  | depth + 1, around, directory, path =>
    match directory, disk.entriesAt? directory with
    | here :: _, some entries =>
      entries.toList.flatMap fun (name, id) =>
        match disk.entryTrail? follow directory (path.child name) id with
        | none => []
        | some (trail, linked) =>
          match trail, disk.nodeAt? trail with
          | _, some (.file content _) => [⟨[name], content.size⟩]
          | child :: _, some (.directory _) =>
            if linked ∧ child ∈ here :: around then []
            else
              (walkFrom disk follow depth (here :: around) trail (path.child name)).map fun found =>
                { found with names := name :: found.names }
          | _, _ => []
    | _, _ => []

/-- The files under the directory that a path leads to.  The first level is always walked. -/
def walk (disk : Disk) (follow : Bool) (depth : Nat) (path : FilePath) : List Found :=
  match disk.locate true path with
  | .ok trail => disk.walkFrom follow (max 1 depth) [] trail path
  | .error _ => []

end WadCatalog.Disk
