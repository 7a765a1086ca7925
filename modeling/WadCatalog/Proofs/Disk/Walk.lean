import WadCatalog.Disk.Walk
import WadCatalog.Proofs.Disk.Soundness

/-
  What a walk finds.

  A walk goes by nodes, while whoever uses what it found goes by paths: the root as it was given,
  with the names behind it.  On a sound disk the two meet.  Wherever the walk is, the path it has put
  together leads there (`locate_of_entryTrail?`): an entry that is no link is one step more, and a
  link was followed by its whole path in the first place.  So the path of every file that was found
  leads to a file of the length that was found (`exists_fileAt_of_mem_walk`), which may or may not be
  opened, and the names on the way to it are names of entries (`isEntryName_of_mem_walkFrom`).

  Both are inductions on the depth, and both see one level of a walk through `walkFrom_cases`.
-/

namespace WadCatalog.Disk

/-- One level of a walk: whatever is found is an entry of the directory, or was found from where the
entry leads. -/
theorem walkFrom_cases {disk : Disk} {follow : Bool} {depth : Nat} {around : List NodeId}
    {directory : Trail} {path : FilePath} {found : Found}
    (hfound : found ∈ disk.walkFrom follow (depth + 1) around directory path) :
    ∃ entries name id trail linked, disk.entriesAt? directory = some entries ∧
      entries[name]? = some id ∧
      disk.entryTrail? follow directory (path.child name) id = some (trail, linked) ∧
      ((∃ content allowed, disk.nodeAt? trail = some (.file content allowed) ∧
          found = ⟨[name], content.size⟩) ∨
        ∃ inside deeper, deeper ∈ disk.walkFrom follow depth inside trail (path.child name) ∧
          found = ⟨name :: deeper.names, deeper.length⟩) := by
  unfold walkFrom at hfound
  split at hfound
  next here above entries hentries =>
    obtain ⟨⟨name, id⟩, hmem, hfound⟩ := List.mem_flatMap.1 hfound
    have hentry := Std.TreeMap.mem_toList_iff_getElem?_eq_some.1 hmem
    simp only at hfound
    split at hfound
    next => cases hfound
    next trail linked htrail =>
      refine ⟨entries, name, id, trail, linked, hentries, hentry, htrail, ?_⟩
      split at hfound
      next content allowed hnode =>
        exact .inl ⟨content, allowed, hnode, List.mem_singleton.1 hfound⟩
      next child above entries hnode =>
        split at hfound
        · cases hfound
        · obtain ⟨deeper, hdeeper, rfl⟩ := List.mem_map.1 hfound
          exact .inr ⟨_, deeper, hdeeper, rfl⟩
      next => cases hfound
  next => cases hfound

variable {disk : Disk} (h : disk.IsSound)
include h

/-- What can be looked up in a directory has the name of an entry. -/
theorem isEntryName_of_entriesAt? {directory : Trail} {entries : Std.TreeMap Bytes NodeId}
    (hentries : disk.entriesAt? directory = some entries) {name : Bytes} {id : NodeId}
    (hentry : entries[name]? = some id) : IsEntryName name := by
  obtain ⟨here, above, -, hnode⟩ := exists_node_of_entriesAt? hentries
  exact h.proper here _ hnode name id hentry

/-- The path of an entry leads where the entry does. -/
theorem locate_of_entryTrail? {follow linked : Bool} {path : FilePath} {directory trail : Trail}
    {entries : Std.TreeMap Bytes NodeId} (hlocate : disk.locate true path = .ok directory)
    (hentries : disk.entriesAt? directory = some entries) {name : Bytes} {id : NodeId}
    (hentry : entries[name]? = some id)
    (htrail : disk.entryTrail? follow directory (path.child name) id = some (trail, linked)) :
    disk.locate true (path.child name) = .ok trail := by
  have hname := isEntryName_of_entriesAt? h hentries hentry
  unfold entryTrail? at htrail
  split at htrail
  next => cases htrail
  next target hnode =>
    split at htrail
    · split at htrail
      next found hfound =>
        cases htrail
        exact hfound
      next => cases htrail
    · cases htrail
  next node hlink hnode =>
    split at htrail
    · cases htrail
    next hpath =>
      cases htrail
      refine locate_child hlocate hentries hname hentry ?_ (Option.not_isSome_iff_eq_none.1 hpath)
      intro target htarget
      exact hlink target (Option.some.inj (hnode.symm.trans htarget))

/-- Whatever a walk goes through has the name of an entry. -/
theorem isEntryName_of_mem_walkFrom {follow : Bool} {depth : Nat} {around : List NodeId}
    {directory : Trail} {path : FilePath} {found : Found}
    (hfound : found ∈ disk.walkFrom follow depth around directory path) :
    ∀ name ∈ found.names, IsEntryName name := by
  induction depth generalizing around directory path found with
  | zero => cases hfound
  | succ depth ih =>
    obtain ⟨entries, name, id, trail, linked, hentries, hentry, -, hcases⟩ :=
      walkFrom_cases hfound
    have hname := isEntryName_of_entriesAt? h hentries hentry
    rcases hcases with ⟨content, allowed, -, rfl⟩ | ⟨inside, deeper, hdeeper, rfl⟩
    · intro other hother
      rw [List.mem_singleton.1 hother]
      exact hname
    · intro other hother
      rcases List.mem_cons.1 hother with rfl | hbelow
      · exact hname
      · exact ih hdeeper other hbelow

/-- **What a walk finds** is a file by its path, and has the length that was found. -/
theorem exists_fileAt_of_mem_walkFrom {follow : Bool} {depth : Nat} {around : List NodeId}
    {directory : Trail} {path : FilePath} (hlocate : disk.locate true path = .ok directory)
    {found : Found} (hfound : found ∈ disk.walkFrom follow depth around directory path) :
    ∃ file content allowed, disk.fileAt (path.descend found.names) = .ok (file, content, allowed) ∧
      content.size = found.length := by
  induction depth generalizing around directory path found with
  | zero => cases hfound
  | succ depth ih =>
    obtain ⟨entries, name, id, trail, linked, hentries, hentry, htrail, hcases⟩ :=
      walkFrom_cases hfound
    have hchild := locate_of_entryTrail? h hlocate hentries hentry htrail
    rcases hcases with ⟨content, allowed, hnode, rfl⟩ | ⟨inside, deeper, hdeeper, rfl⟩
    · cases trail with
      | nil => cases hnode
      | cons file above =>
        exact ⟨file, content, allowed, fileAt_eq_ok_iff.2 ⟨above, hchild, hnode⟩, rfl⟩
    · exact ih hchild hdeeper

/-- So does what a walk finds from the path of its root. -/
theorem exists_fileAt_of_mem_walk {follow : Bool} {depth : Nat} {path : FilePath} {found : Found}
    (hfound : found ∈ disk.walk follow depth path) :
    ∃ file content allowed, disk.fileAt (path.descend found.names) = .ok (file, content, allowed) ∧
      content.size = found.length := by
  unfold walk at hfound
  split at hfound
  next trail hlocate => exact exists_fileAt_of_mem_walkFrom h hlocate hfound
  next => cases hfound

end WadCatalog.Disk
