import WadCatalog.Disk.Walk
import WadCatalog.Proofs.Disk.Resolution

/-
  What a walk lists.

  A walk without links descends a tree by recursion, and what it lists can be said without one:

  1. **Which files** (`mem_walk_iff`).  A file is listed exactly if names lead to it from the root of
     the walk, through directories only (`below?`), if there are no more names than levels, and if
     its path can be looked up.  A path that can be looked up can be so up to any of its names
     (`pathError?_of_isPrefix`), so the directories on the way need no condition of their own.
  2. **In which order** (`pairwise_walk`).  Entries come in the order of their names, and what lies in
     a directory comes at the place of the directory.  That is the order of the *lists* of names, name
     by name.  It is not the order of the paths as text: `a/b` is listed before `a.txt`, although `/`
     comes behind `.`.

  Both are inductions on the levels that are left, and both see one level through what a single entry
  contributes (`entryFiles`).
-/

namespace WadCatalog

/-! ## Paths that can be looked up -/

theorem FilePath.isPrefix_child (path : FilePath) (name : Bytes) :
    path.bytes <+: (path.child name).bytes := by
  unfold child
  split
  · exact List.prefix_append _ _
  · exact List.prefix_append _ _

theorem FilePath.isPrefix_descend (path : FilePath) (names : List Bytes) :
    path.bytes <+: (path.descend names).bytes := by
  induction names generalizing path with
  | nil => exact List.prefix_rfl
  | cons name names ih => exact (path.isPrefix_child name).trans (ih (path.child name))

namespace Disk

/-- The front of a path that can be looked up can be looked up, unless it is empty. -/
theorem pathError?_of_isPrefix {front path : FilePath} (hstarts : front.bytes <+: path.bytes)
    (hfront : front.bytes ≠ []) (hpath : pathError? path = none) : pathError? front = none := by
  unfold pathError? at hpath ⊢
  split at hpath
  next => cases hpath
  next =>
    split at hpath
    next => cases hpath
    next hzero =>
      split at hpath
      next => cases hpath
      next hlength =>
        have hzero' : 0 ∉ front.bytes := fun hmem => hzero (hstarts.subset hmem)
        have hlength' : ¬ pathLimit < front.bytes.length :=
          fun hlong => hlength (Nat.lt_of_lt_of_le hlong hstarts.length_le)
        rw [if_neg hfront, if_neg hzero', if_neg hlength']

/-! ## What lies below a node -/

/-- What lies below a node along some names.  Only directories are gone through, so a link leads
nowhere. -/
def below? (disk : Disk) : NodeId → List Bytes → Option Node
  | here, [] => disk.nodes[here]?
  | here, name :: names =>
    match disk.nodes[here]? with
    | some (.directory entries) => entries[name]?.bind fun id => below? disk id names
    | _ => none

theorem below?_cons_eq_some_iff {disk : Disk} {here : NodeId} {name : Bytes} {names : List Bytes}
    {node : Node} :
    disk.below? here (name :: names) = some node ↔
      ∃ entries id, disk.nodes[here]? = some (.directory entries) ∧ entries[name]? = some id ∧
        disk.below? id names = some node := by
  rw [below?]
  constructor
  · intro h
    split at h
    next entries hhere =>
      obtain ⟨id, hentry, hbelow⟩ := Option.bind_eq_some_iff.1 h
      exact ⟨entries, id, hhere, hentry, hbelow⟩
    next => cases h
  · rintro ⟨entries, id, hhere, hentry, hbelow⟩
    rw [hhere]
    exact Option.bind_eq_some_iff.2 ⟨id, hentry, hbelow⟩

/-! ## One level -/

/-- What a walk without links lists for one entry of the directory that it is in. -/
def entryFiles (disk : Disk) (depth : Nat) (around : List NodeId) (directory : Trail)
    (path : FilePath) : Bytes × NodeId → List Found
  | (name, id) =>
    if (pathError? (path.child name)).isSome then []
    else match disk.nodes[id]? with
      | some (.file content _) => [⟨[name], content.size⟩]
      | some (.directory _) =>
        (disk.walkFrom false depth around (id :: directory) (path.child name)).map fun found =>
          { found with names := name :: found.names }
      | _ => []

section Level

variable {disk : Disk} {depth : Nat} {around : List NodeId} {directory : Trail} {path : FilePath}

/-- A walk lists its entries one after another. -/
theorem walkFrom_succ {here : NodeId} {above : Trail} {entries : Std.TreeMap Bytes NodeId}
    (hentries : disk.entriesAt? (here :: above) = some entries) :
    disk.walkFrom false (depth + 1) around (here :: above) path =
      entries.toList.flatMap (disk.entryFiles depth (here :: around) (here :: above) path) := by
  unfold walkFrom
  simp only [hentries]
  refine congrArg (entries.toList.flatMap ·) (funext fun ⟨name, id⟩ => ?_)
  cases hpath : (pathError? (path.child name)).isSome with
  | true =>
    cases hnode : disk.nodes[id]? with
    | none => simp [entryFiles, entryTrail?, hpath, hnode]
    | some node => cases node <;> simp [entryFiles, entryTrail?, hpath, hnode]
  | false =>
    cases hnode : disk.nodes[id]? with
    | none => simp [entryFiles, entryTrail?, hpath, hnode]
    | some node => cases node <;> simp [entryFiles, entryTrail?, nodeAt?, hpath, hnode]

/-- A walk from anything but a directory lists nothing. -/
theorem walkFrom_eq_nil (hentries : disk.entriesAt? directory = none) :
    disk.walkFrom false depth around directory path = [] := by
  cases depth with
  | zero => rfl
  | succ depth =>
    unfold walkFrom
    simp only [hentries]

theorem mem_entryFiles_iff {name : Bytes} {id : NodeId} {found : Found} :
    found ∈ disk.entryFiles depth around directory path (name, id) ↔
      pathError? (path.child name) = none ∧
        ((∃ content allowed, disk.nodes[id]? = some (.file content allowed) ∧
            found = ⟨[name], content.size⟩) ∨
          ∃ inner deeper, disk.nodes[id]? = some (.directory inner) ∧
            deeper ∈ disk.walkFrom false depth around (id :: directory) (path.child name) ∧
            found = ⟨name :: deeper.names, deeper.length⟩) := by
  rw [entryFiles]
  cases hpath : pathError? (path.child name) with
  | some error => simp
  | none =>
    cases hnode : disk.nodes[id]? with
    | none => simp
    | some node => cases node <;> simp [eq_comm]

/-- Whatever comes of an entry starts with its name. -/
theorem exists_names_of_mem_entryFiles {entry : Bytes × NodeId} {found : Found}
    (hfound : found ∈ disk.entryFiles depth around directory path entry) :
    ∃ rest, found.names = entry.1 :: rest := by
  obtain ⟨name, id⟩ := entry
  obtain ⟨-, ⟨content, allowed, -, rfl⟩ | ⟨inner, deeper, -, -, rfl⟩⟩ :=
    mem_entryFiles_iff.1 hfound
  · exact ⟨[], rfl⟩
  · exact ⟨deeper.names, rfl⟩

end Level

/-! ## All levels -/

/-- That there is a file for a walk to list that goes over `depth` levels from the directory at the
end of a trail, with the given path. -/
structure Lists (disk : Disk) (depth : Nat) (directory : Trail) (path : FilePath) (found : Found) :
    Prop where
  /-- The directory itself is no file. -/
  named : found.names ≠ []
  /-- There are enough levels. -/
  inRange : found.names.length ≤ depth
  /-- The path of the file can be looked up. -/
  inReach : pathError? (path.descend found.names) = none
  /-- The file is there, and has this length. -/
  onDisk : ∃ here content allowed, directory.head? = some here ∧
    disk.below? here found.names = some (.file content allowed) ∧ found.length = content.size

/-- Whatever a walk lists is there. -/
theorem lists_of_mem_walkFrom {disk : Disk} {depth : Nat} {around : List NodeId}
    {directory : Trail} {path : FilePath} {found : Found}
    (hmem : found ∈ disk.walkFrom false depth around directory path) :
    disk.Lists depth directory path found := by
  induction depth generalizing around directory path found with
  | zero => cases hmem
  | succ depth ih =>
    cases hentries : disk.entriesAt? directory with
    | none =>
      rw [walkFrom_eq_nil hentries] at hmem
      cases hmem
    | some entries =>
      obtain ⟨here, above, rfl, hhere⟩ := exists_node_of_entriesAt? hentries
      rw [walkFrom_succ hentries] at hmem
      obtain ⟨⟨name, id⟩, hentry, hfound⟩ := List.mem_flatMap.1 hmem
      have hentry := Std.TreeMap.mem_toList_iff_getElem?_eq_some.1 hentry
      obtain ⟨hreach, ⟨content, allowed, hnode, rfl⟩ | ⟨inner, deeper, -, hdeeper, rfl⟩⟩ :=
        mem_entryFiles_iff.1 hfound
      · exact ⟨List.cons_ne_nil _ _, Nat.succ_le_succ (Nat.zero_le _), hreach, here, content,
          allowed, rfl, below?_cons_eq_some_iff.2 ⟨entries, id, hhere, hentry, hnode⟩, rfl⟩
      · obtain ⟨-, hrange, hreach, last, content, allowed, hlast, hbelow, hlength⟩ := ih hdeeper
        cases hlast
        exact ⟨List.cons_ne_nil _ _, Nat.succ_le_succ hrange, hreach, here, content, allowed, rfl,
          below?_cons_eq_some_iff.2 ⟨entries, id, hhere, hentry, hbelow⟩, hlength⟩

/-- Whatever is there is listed. -/
theorem mem_walkFrom_of_lists {disk : Disk} {depth : Nat} {around : List NodeId}
    {directory : Trail} {path : FilePath} (hpath : path.bytes ≠ []) {found : Found}
    (h : disk.Lists depth directory path found) :
    found ∈ disk.walkFrom false depth around directory path := by
  induction depth generalizing around directory path found with
  | zero => exact absurd (List.eq_nil_of_length_eq_zero (Nat.le_zero.1 h.inRange)) h.named
  | succ depth ih =>
    obtain ⟨names, length⟩ := found
    obtain ⟨hnamed, hrange, hreach, here, content, allowed, hhead, hbelow, rfl⟩ := h
    obtain ⟨above, rfl⟩ := List.head?_eq_some_iff.1 hhead
    obtain ⟨name, rest, rfl⟩ := List.exists_cons_of_ne_nil hnamed
    obtain ⟨entries, id, hhere, hentry, hbelow⟩ := below?_cons_eq_some_iff.1 hbelow
    have hchild : (path.child name).bytes ≠ [] := by
      intro hempty
      exact hpath (List.prefix_nil.1 (hempty ▸ path.isPrefix_child name))
    have hreach' : pathError? (path.child name) = none :=
      pathError?_of_isPrefix ((path.child name).isPrefix_descend rest) hchild hreach
    rw [walkFrom_succ (entriesAt?_cons.2 hhere)]
    refine List.mem_flatMap.2 ⟨(name, id), Std.TreeMap.mem_toList_iff_getElem?_eq_some.2 hentry,
      mem_entryFiles_iff.2 ⟨hreach', ?_⟩⟩
    cases rest with
    | nil => exact .inl ⟨content, allowed, hbelow, rfl⟩
    | cons next more =>
      -- there are names left, so the entry is a directory
      obtain ⟨inner, -, hnode, -, -⟩ := below?_cons_eq_some_iff.1 hbelow
      refine .inr ⟨inner, ⟨next :: more, content.size⟩, hnode, ih hchild ?_, rfl⟩
      exact ⟨List.cons_ne_nil _ _, Nat.le_of_succ_le_succ hrange, hreach, id, content, allowed, rfl,
        hbelow, rfl⟩

/-- A walk lists the files in the order of their names. -/
theorem pairwise_walkFrom (disk : Disk) (depth : Nat) (around : List NodeId) (directory : Trail)
    (path : FilePath) :
    (disk.walkFrom false depth around directory path).Pairwise fun one other =>
      one.names < other.names := by
  induction depth generalizing around directory path with
  | zero => exact List.Pairwise.nil
  | succ depth ih =>
    cases hentries : disk.entriesAt? directory with
    | none =>
      rw [walkFrom_eq_nil hentries]
      exact List.Pairwise.nil
    | some entries =>
      obtain ⟨here, above, rfl, -⟩ := exists_node_of_entriesAt? hentries
      rw [walkFrom_succ hentries, List.pairwise_flatMap]
      constructor
      · -- at one entry: all names start with its own, and the rest is a walk over fewer levels
        rintro ⟨name, id⟩ -
        rw [entryFiles]
        split
        · exact List.Pairwise.nil
        · split
          · exact List.pairwise_singleton _ _
          · rw [List.pairwise_map]
            exact (ih _ _ _).imp fun h => List.cons_lt_cons_iff.2 (.inr ⟨rfl, h⟩)
          · exact List.Pairwise.nil
      · -- at two entries: the first names are enough to tell
        refine Std.TreeMap.ordered_keys_toList.imp ?_
        intro entry other hlt found hfound later hlater
        obtain ⟨rest, hrest⟩ := exists_names_of_mem_entryFiles hfound
        obtain ⟨more, hmore⟩ := exists_names_of_mem_entryFiles hlater
        rw [hrest, hmore]
        exact List.cons_lt_cons_iff.2 (.inl ((Bytes.compare_eq_lt_iff _ _).1 hlt))

/-! ## From the root of a walk -/

/-- That there is a file below the root of a tree, along some names, whether it may be opened or not.
The path of the root itself may lead through links. -/
def IsFileBelow (disk : Disk) (root : FilePath) (names : List Bytes) (content : Content) : Prop :=
  names ≠ [] ∧ ∃ here above allowed, disk.locate true root = .ok (here :: above) ∧
    disk.below? here names = some (.file content allowed)

/-- **Which files.**  The walk of a tree lists the files below its root that are not too deep and can
be looked up. -/
theorem mem_walk_iff {disk : Disk} {depth : Nat} {root : FilePath} {found : Found} :
    found ∈ disk.walk false depth root ↔
      found.names.length ≤ max 1 depth ∧ pathError? (root.descend found.names) = none ∧
        ∃ content, disk.IsFileBelow root found.names content ∧ found.length = content.size := by
  unfold walk IsFileBelow
  cases hlocate : disk.locate true root with
  | error error => simp
  | ok directory =>
    have hroot : root.bytes ≠ [] := by
      intro hempty
      have herror := (locate_eq_ok_iff.1 hlocate).1
      rw [pathError?, if_pos hempty] at herror
      cases herror
    constructor
    · intro hmem
      obtain ⟨hnamed, hrange, hreach, here, content, allowed, hhead, hbelow, hlength⟩ :=
        lists_of_mem_walkFrom hmem
      obtain ⟨above, rfl⟩ := List.head?_eq_some_iff.1 hhead
      exact ⟨hrange, hreach, content, ⟨hnamed, here, above, allowed, rfl, hbelow⟩, hlength⟩
    · rintro ⟨hrange, hreach, content, ⟨hnamed, here, above, allowed, heq, hbelow⟩, hlength⟩
      cases heq
      exact mem_walkFrom_of_lists hroot
        ⟨hnamed, hrange, hreach, here, content, allowed, rfl, hbelow, hlength⟩

/-- **In which order.**  The walk of a tree lists the files in the order of their names. -/
theorem pairwise_walk (disk : Disk) (depth : Nat) (root : FilePath) :
    (disk.walk false depth root).Pairwise fun one other => one.names < other.names := by
  unfold walk
  split
  next directory hlocate => exact pairwise_walkFrom disk (max 1 depth) [] directory root
  next => exact List.Pairwise.nil

end Disk

end WadCatalog
