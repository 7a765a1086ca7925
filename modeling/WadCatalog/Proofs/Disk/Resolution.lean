import WadCatalog.Disk

/-
  Where a path leads.

  A path is followed step by step, and again from the start of each link on the way.  What this
  comes to is shown in three steps.

  1. **Steps behind steps** (`advance_append`, `reach_append`).  Where some steps lead with others
     behind them is known from where they lead alone.  Advancing stops at a link, so the induction
     for `advance` is on the steps and that for `reach` on the links that are left.
  2. **An entry of a directory** (`locate_child`).  If a path leads to a directory, the path of an
     entry leads to the entry, unless that is a link.  A separator at the end of the first path is a
     step more, which stays where it is (`reach_of_reach_dot`).
  3. **A file** (`fileAt_eq_ok_iff`).  A path that leads to the node of a file leads to the file, and
     the file can be opened exactly if it may be (`openFile_of_fileAt`, `fileAt_of_openFile`).
-/

namespace WadCatalog

namespace FilePath

/-! ## The names in a path -/

/-- The names in a path: what stands between separators. -/
def names (path : FilePath) : List Bytes :=
  (Delimited.pieces separator path.bytes).filter (· != [])

/-- The steps of a path are its names, and one step more for a separator at the end. -/
theorem steps_eq (path : FilePath) :
    path.steps = path.names ∨ path.steps = path.names ++ [[dot]] := by
  unfold steps names
  simp only
  split
  · exact .inr rfl
  · exact .inl rfl

/-- What can stand between separators. -/
structure IsPiece (piece : Bytes) : Prop where
  ne_nil : piece ≠ []
  separator_not_mem : separator ∉ piece

theorem isPiece_of_mem_names {path : FilePath} {name : Bytes} (h : name ∈ path.names) :
    IsPiece name := by
  obtain ⟨hpiece, hne⟩ := List.mem_filter.1 h
  exact ⟨by simpa using hne, Delimited.not_mem_of_mem_pieces hpiece⟩

theorem isPiece_of_mem_steps {path : FilePath} {step : Bytes} (h : step ∈ path.steps) :
    IsPiece step := by
  rcases path.steps_eq with hsteps | hsteps
  · exact isPiece_of_mem_names (hsteps ▸ h)
  · rw [hsteps] at h
    rcases List.mem_append.1 h with hname | hdot
    · exact isPiece_of_mem_names hname
    · rw [List.mem_singleton.1 hdot]
      exact ⟨by decide, by decide⟩

/-- The path of an entry starts where the path of the directory does. -/
theorem isAbsolute_child {path : FilePath} (hpath : path.bytes ≠ []) (name : Bytes) :
    (path.child name).isAbsolute = path.isAbsolute := by
  obtain ⟨first, rest, hbytes⟩ := List.exists_cons_of_ne_nil hpath
  unfold isAbsolute child
  rw [hbytes]
  split <;> rfl

/-- The path of an entry has one name more, and no separator at the end. -/
theorem steps_child {path : FilePath} (hpath : path.bytes ≠ []) {name : Bytes}
    (hname : IsPiece name) : (path.child name).steps = path.names ++ [name] := by
  have hpiece : Delimited.pieces separator name = [name] :=
    Delimited.pieces_of_not_mem hname.separator_not_mem
  have hkept : [name].filter (· != []) = [name] := by simp [hname.ne_nil]
  have hnames : (path.child name).names = path.names ++ [name] := by
    unfold names child
    by_cases hlast : path.bytes.getLast? = some separator
    · obtain ⟨front, hbytes⟩ := List.getLast?_eq_some_iff.1 hlast
      rw [if_pos (.inr hlast), hbytes, List.append_assoc, List.singleton_append,
        Delimited.pieces_append_cons, Delimited.pieces_append_cons, hpiece, List.filter_append,
        hkept, List.filter_append]
      simp [Delimited.pieces]
    · rw [if_neg (not_or.2 ⟨hpath, hlast⟩), Delimited.pieces_append_cons, hpiece,
        List.filter_append, hkept]
  obtain ⟨front, hfront⟩ : ∃ front, (path.child name).bytes = front ++ name := by
    unfold child
    split
    · exact ⟨path.bytes, rfl⟩
    · exact ⟨path.bytes ++ [separator], by simp⟩
  have hend : (path.child name).bytes.getLast? ≠ some separator := by
    intro h
    rw [hfront, List.getLast?_append, List.getLast?_eq_some_getLast hname.ne_nil,
      Option.some_or] at h
    exact hname.separator_not_mem (Option.some.inj h ▸ List.getLast_mem hname.ne_nil)
  have hsteps : (path.child name).steps = (path.child name).names :=
    if_neg fun h => hend h.2
  rw [hsteps, hnames]

end FilePath

namespace Disk

/-! ## Steps behind steps -/

/-- Where steps lead with others behind them, if it is known where they lead alone. -/
def Reach.andThen (disk : Disk) (more : List Bytes) : Reach → Reach
  | .arrived trail => disk.advance true trail more
  | .absent _ _ => .failed .notFound
  | .blocked directory target rest => .blocked directory target (rest ++ more)
  | .failed error => .failed error

/-- **Steps behind steps.**  A step that is not the last one needs something to go on from. -/
theorem advance_append (disk : Disk) (trail : Trail) (steps : List Bytes) {more : List Bytes}
    (hmore : more ≠ []) :
    disk.advance true trail (steps ++ more) =
      Reach.andThen disk more (disk.advance true trail steps) := by
  induction steps generalizing trail with
  | nil => rfl
  | cons name rest ih =>
    have hrest : rest ++ more ≠ [] := List.append_ne_nil_of_right_ne_nil _ hmore
    rw [List.cons_append, advance, advance]
    cases disk.entriesAt? trail with
    | none => rfl
    | some entries =>
      simp only
      split
      · exact ih trail
      · split
        · exact ih _
        · split
          · rfl
          · cases entries[name]? with
            | none =>
              simp only
              split <;> rfl
            | some id =>
              simp only
              cases hnode : disk.nodes[id]? with
              | none => exact ih _
              | some node =>
                cases node with
                | file content allowed => exact ih _
                | directory entries => exact ih _
                | link target => simp [hrest, Reach.andThen]

/-- Steps end where they lead without a link, or where the first link leads with the steps that are
left, unless there are too many links. -/
theorem reach_cases {disk : Disk} {follow : Bool} {links : Nat} {trail : Trail}
    {steps : List Bytes} {outcome : Reach}
    (h : disk.reach follow links trail steps = outcome)
    (hlinks : outcome ≠ .failed .tooManyLinks) :
    disk.advance follow trail steps = outcome ∨
      ∃ left directory target rest, links = left + 1 ∧
        disk.advance follow trail steps = .blocked directory target rest ∧
        disk.reach follow left (origin directory target) (target.steps ++ rest) = outcome := by
  unfold reach at h
  cases hadvance : disk.advance follow trail steps with
  | arrived last => exact .inl (by simpa only [hadvance] using h)
  | absent directory name => exact .inl (by simpa only [hadvance] using h)
  | failed error => exact .inl (by simpa only [hadvance] using h)
  | blocked directory target rest =>
    rw [hadvance] at h
    cases links with
    | zero => exact absurd h.symm hlinks
    | succ left => exact .inr ⟨left, directory, target, rest, rfl, rfl, h⟩

/-- Steps that are blocked go on from the link. -/
theorem reach_of_blocked {disk : Disk} {follow : Bool} {trail directory : Trail}
    {steps rest : List Bytes} {target : FilePath}
    (h : disk.advance follow trail steps = .blocked directory target rest) (left : Nat) :
    disk.reach follow (left + 1) trail steps =
      disk.reach follow left (origin directory target) (target.steps ++ rest) := by
  conv =>
    lhs
    unfold reach
  rw [h]

theorem reach_eq_arrived_iff {disk : Disk} {links : Nat} {trail last : Trail}
    {steps : List Bytes} :
    disk.reach true links trail steps = .arrived last ↔
      disk.advance true trail steps = .arrived last ∨
        ∃ left directory target rest, links = left + 1 ∧
          disk.advance true trail steps = .blocked directory target rest ∧
          disk.reach true left (origin directory target) (target.steps ++ rest) =
            .arrived last := by
  constructor
  · exact fun h => reach_cases h nofun
  · rintro (hadvance | ⟨left, directory, target, rest, rfl, hblocked, h⟩)
    · unfold reach
      rw [hadvance]
    · rw [reach_of_blocked hblocked]
      exact h

/-- Steps that arrive can be gone on from without a link. -/
theorem reach_append {disk : Disk} {links : Nat} {trail next last : Trail}
    {steps more : List Bytes} (h : disk.reach true links trail steps = .arrived next)
    (hmore : more ≠ []) (hlast : disk.advance true next more = .arrived last) :
    disk.reach true links trail (steps ++ more) = .arrived last := by
  induction links using Nat.strongRecOn generalizing trail steps with
  | ind links ih =>
    rw [reach_eq_arrived_iff, disk.advance_append trail steps hmore]
    rcases reach_eq_arrived_iff.1 h with
      hadvance | ⟨left, directory, target, rest, rfl, hadvance, hreach⟩
    · rw [hadvance]
      exact .inl hlast
    · rw [hadvance]
      refine .inr ⟨left, directory, target, rest ++ more, rfl, rfl, ?_⟩
      rw [← List.append_assoc]
      exact ih left (Nat.lt_succ_self left) hreach

/-- A step that stays in its directory makes no difference. -/
theorem reach_of_reach_dot {disk : Disk} {links : Nat} {trail last : Trail} {steps : List Bytes}
    (h : disk.reach true links trail (steps ++ [[FilePath.dot]]) = .arrived last) :
    disk.reach true links trail steps = .arrived last := by
  have hstay : ∀ next, disk.advance true next [[FilePath.dot]] = .arrived next ∨
      disk.advance true next [[FilePath.dot]] = .failed .notDirectory := by
    intro next
    rw [advance]
    cases disk.entriesAt? next with
    | none => exact .inr rfl
    | some entries => exact .inl rfl
  induction links using Nat.strongRecOn generalizing trail steps with
  | ind links ih =>
    have hcases := reach_eq_arrived_iff.1 h
    rw [disk.advance_append trail steps (List.cons_ne_nil _ _)] at hcases
    rw [reach_eq_arrived_iff]
    cases hadvance : disk.advance true trail steps with
    | absent directory name => simp [hadvance, Reach.andThen] at hcases
    | failed error => simp [hadvance, Reach.andThen] at hcases
    | arrived next =>
      left
      rw [hadvance, Reach.andThen] at hcases
      rcases hstay next with harrived | hfailed
      · rw [harrived] at hcases
        simpa using hcases
      · rw [hfailed] at hcases
        simp at hcases
    | blocked directory target rest =>
      right
      rw [hadvance, Reach.andThen] at hcases
      rcases hcases with hnone | ⟨left, _, _, _, rfl, hblocked, hreach⟩
      · cases hnone
      · cases hblocked
        rw [← List.append_assoc] at hreach
        exact ⟨left, directory, target, rest, rfl, rfl, ih left (Nat.lt_succ_self left) hreach⟩

/-! ## An entry of a directory -/

/-- There are entries at the end of a trail if there is a directory. -/
theorem exists_node_of_entriesAt? {disk : Disk} {trail : Trail}
    {entries : Std.TreeMap Bytes NodeId} (h : disk.entriesAt? trail = some entries) :
    ∃ id above, trail = id :: above ∧ disk.nodes[id]? = some (.directory entries) := by
  unfold entriesAt? at h
  split at h
  next found hnode =>
    cases h
    cases trail with
    | nil => cases hnode
    | cons id above => exact ⟨id, above, rfl, hnode⟩
  next => cases h

/-- The entries at the end of a trail are those of its innermost node. -/
theorem entriesAt?_cons {disk : Disk} {id : NodeId} {above : Trail}
    {entries : Std.TreeMap Bytes NodeId} :
    disk.entriesAt? (id :: above) = some entries ↔
      disk.nodes[id]? = some (.directory entries) := by
  constructor
  · intro h
    obtain ⟨_, _, heq, hnode⟩ := exists_node_of_entriesAt? h
    cases heq
    exact hnode
  · intro h
    have hat : disk.nodeAt? (id :: above) = some (.directory entries) := h
    rw [entriesAt?, hat]

/-- A name that can be looked up in a directory. -/
structure IsEntryName (name : Bytes) : Prop extends FilePath.IsPiece name where
  ne_dot : name ≠ [FilePath.dot]
  ne_dots : name ≠ [FilePath.dot, FilePath.dot]
  length_le : name.length ≤ nameLimit

/-- A step to an entry that is not a link arrives at it. -/
theorem advance_entry {disk : Disk} {directory : Trail} {entries : Std.TreeMap Bytes NodeId}
    (hentries : disk.entriesAt? directory = some entries) {name : Bytes} {id : NodeId}
    (hname : IsEntryName name) (hentry : entries[name]? = some id)
    (hlink : ∀ target, disk.nodes[id]? ≠ some (.link target)) :
    disk.advance true directory [name] = .arrived (id :: directory) := by
  rw [advance, hentries]
  simp only [if_neg hname.ne_dot, if_neg hname.ne_dots, if_neg (Nat.not_lt.2 hname.length_le),
    hentry]
  rfl

theorem locate_eq_ok_iff {disk : Disk} {path : FilePath} {trail : Trail} :
    disk.locate true path = .ok trail ↔ pathError? path = none ∧
      disk.reach true linkLimit (origin disk.workingDirectory path) path.steps =
        .arrived trail := by
  unfold locate find
  cases pathError? path with
  | some error => simp
  | none =>
    simp only [true_and]
    cases disk.reach true linkLimit (origin disk.workingDirectory path) path.steps <;> simp

/-- **An entry of a directory.**  The path of an entry leads to it, unless it is a link or the path
is too long. -/
theorem locate_child {disk : Disk} {path : FilePath} {directory : Trail}
    {entries : Std.TreeMap Bytes NodeId} (hlocate : disk.locate true path = .ok directory)
    (hentries : disk.entriesAt? directory = some entries) {name : Bytes} {id : NodeId}
    (hname : IsEntryName name) (hentry : entries[name]? = some id)
    (hlink : ∀ target, disk.nodes[id]? ≠ some (.link target))
    (hpath : pathError? (path.child name) = none) :
    disk.locate true (path.child name) = .ok (id :: directory) := by
  obtain ⟨herror, hreach⟩ := locate_eq_ok_iff.1 hlocate
  have hne : path.bytes ≠ [] := by
    intro hempty
    rw [pathError?, if_pos hempty] at herror
    cases herror
  have horigin : origin disk.workingDirectory (path.child name) =
      origin disk.workingDirectory path := by
    rw [origin, origin, FilePath.isAbsolute_child hne]
  -- a separator at the end of the path of the directory was a step on the spot
  have hnames : disk.reach true linkLimit (origin disk.workingDirectory path) path.names =
      .arrived directory := by
    rcases path.steps_eq with hsteps | hsteps
    · rwa [hsteps] at hreach
    · rw [hsteps] at hreach
      exact reach_of_reach_dot hreach
  rw [locate_eq_ok_iff, horigin, FilePath.steps_child hne hname.toIsPiece]
  exact ⟨hpath, reach_append hnames (List.cons_ne_nil _ _)
    (advance_entry hentries hname hentry hlink)⟩

/-! ## A file -/

section File

variable {disk : Disk} {path : FilePath} {file : NodeId} {content : Content} {allowed : Bool}

/-- A path leads to a file if its node is one. -/
theorem fileAt_eq_ok_iff :
    disk.fileAt path = .ok (file, content, allowed) ↔
      ∃ above, disk.locate true path = .ok (file :: above) ∧
        disk.nodes[file]? = some (.file content allowed) := by
  constructor
  · intro h
    unfold fileAt at h
    split at h
    next => cases h
    next trail hlocate =>
      split at h
      next id above held right hnode =>
        cases h
        exact ⟨above, hlocate, hnode⟩
      next => cases h
      next => cases h
  · rintro ⟨above, hlocate, hnode⟩
    have hat : disk.nodeAt? (file :: above) = some (.file content allowed) := hnode
    rw [fileAt, hlocate]
    simp only [hat]

/-- A file is opened if it may be. -/
theorem openFile_of_fileAt (h : disk.fileAt path = .ok (file, content, allowed)) :
    disk.openFile path =
      if allowed = true then .ok (file, content) else .error .permissionDenied := by
  rw [openFile, h]
  cases allowed <;> rfl

/-- What is opened is a file that may be. -/
theorem fileAt_of_openFile (h : disk.openFile path = .ok (file, content)) :
    disk.fileAt path = .ok (file, content, true) := by
  unfold openFile at h
  split at h
  next => cases h
  next => cases h
  next id held hfile =>
    cases h
    exact hfile

end File

end Disk

end WadCatalog
