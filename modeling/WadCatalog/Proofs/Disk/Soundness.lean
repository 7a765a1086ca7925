import WadCatalog.Proofs.Disk.Resolution

/-
  Sound disks.

  A disk is a table of nodes, and nothing in its type says that no entry of a directory is called
  `..` or has a `/` in its name, or that the root is a directory.  `IsSound` says it.

  1. **Where steps end** (`isKnown_advance`, `isKnown_reach`).  Each step needs a directory to stand
     in, so a trail has directories above its end; steps that end on the spot, by `.` or `..`, lead to
     a directory; and a name that is missed is one that can be looked up.  The induction is on the
     steps up to a link, and on the links that are left along links.
  2. **What changes a disk** keeps it sound (`IsSound.writeFile` and its neighbours).  Whatever is
     written, one node is changed at a time (`IsSound.set`, `IsSound.push`), and a new entry has a
     name that was missed before.  So every disk that comes about is sound (`IsBuilt.isSound`).
  3. **Base names** (`isSome_fileName?_of_openFile`).  A path without a base name ends on the spot,
     so what can be opened as a file has one.
-/

namespace WadCatalog

/-- That the entries of a node, if it is a directory, have names that can be looked up. -/
def Node.IsProper : Node → Prop
  | .directory entries => ∀ (name : Bytes) (id : NodeId), entries[name]? = some id →
      Disk.IsEntryName name
  | .file _ _ | .link _ => True

namespace Disk

/-- That there is a directory under a number. -/
def IsDirectoryNode (disk : Disk) (id : NodeId) : Prop :=
  ∃ entries, disk.nodes[id]? = some (.directory entries)

/-- That a trail leads to a directory, through directories. -/
structure IsPlace (disk : Disk) (trail : Trail) : Prop where
  ne_nil : trail ≠ []
  directories : ∀ id ∈ trail, disk.IsDirectoryNode id

/-- That a disk is one that paths can be followed on. -/
structure IsSound (disk : Disk) : Prop where
  /-- All entries can be looked up. -/
  proper : ∀ (id : NodeId) (node : Node), disk.nodes[id]? = some node → node.IsProper
  /-- The root is a directory. -/
  root : disk.IsPlace root
  /-- So is where relative paths start. -/
  workingDirectory : disk.IsPlace disk.workingDirectory

/-! ## One step after another -/

/-- That steps end on the spot, if there are any. -/
def EndsOnSpot (steps : List Bytes) : Prop :=
  ∀ step, steps.getLast? = some step →
    step = [FilePath.dot] ∨ step = [FilePath.dot, FilePath.dot]

/-- What is known of the end of some steps. -/
def Reach.IsKnown (disk : Disk) (steps : List Bytes) : Reach → Prop
  | .arrived last =>
    (∀ id ∈ last.tail, disk.IsDirectoryNode id) ∧
      (steps ≠ [] → EndsOnSpot steps → disk.IsPlace last)
  | .absent directory name =>
    disk.IsPlace directory ∧ ((∀ step ∈ steps, FilePath.IsPiece step) → IsEntryName name)
  | .blocked directory _ rest =>
    disk.IsPlace directory ∧ rest <:+ steps ∧ (EndsOnSpot steps → rest ≠ [])
  | .failed _ => True

theorem isPlace_of_entriesAt? {disk : Disk} {trail : Trail}
    {entries : Std.TreeMap Bytes NodeId} (hentries : disk.entriesAt? trail = some entries)
    (habove : ∀ id ∈ trail.tail, disk.IsDirectoryNode id) : disk.IsPlace trail := by
  obtain ⟨id, above, rfl, hnode⟩ := exists_node_of_entriesAt? hentries
  refine ⟨List.cons_ne_nil _ _, ?_⟩
  intro other hother
  rcases List.mem_cons.1 hother with rfl | hmem
  · exact ⟨entries, hnode⟩
  · exact habove other hmem

theorem IsPlace.directories_tail {disk : Disk} {trail : Trail} (h : disk.IsPlace trail) :
    ∀ id ∈ trail.tail, disk.IsDirectoryNode id :=
  fun id hid => h.directories id (List.mem_of_mem_tail hid)

theorem IsPlace.above {disk : Disk} {trail : Trail} (h : disk.IsPlace trail) :
    disk.IsPlace (above trail) := by
  match trail, h with
  | [], h => exact absurd rfl h.ne_nil
  | [id], h => exact h
  | _ :: parent :: rest, h =>
    exact ⟨List.cons_ne_nil _ _, fun id hid => h.directories id (List.mem_cons_of_mem _ hid)⟩

theorem EndsOnSpot.of_cons {name : Bytes} {rest : List Bytes} (h : EndsOnSpot (name :: rest)) :
    EndsOnSpot rest := by
  intro step hstep
  apply h
  rw [List.getLast?_cons, hstep]
  rfl

/-- One step in front of others; what is not known of their end yet is that of no steps. -/
theorem Reach.IsKnown.cons {disk : Disk} {outcome : Reach} {name : Bytes} {rest : List Bytes}
    (h : outcome.IsKnown disk rest)
    (hlast : rest = [] → EndsOnSpot [name] → ∀ last, outcome = .arrived last →
      disk.IsPlace last) :
    outcome.IsKnown disk (name :: rest) := by
  cases outcome with
  | failed error => trivial
  | absent directory missing =>
    exact ⟨h.1, fun hpieces => h.2 fun step hstep => hpieces step (.tail _ hstep)⟩
  | blocked directory target left =>
    obtain ⟨hplace, hsuffix, hne⟩ := h
    exact ⟨hplace, hsuffix.trans (List.suffix_cons name rest), fun hends => hne hends.of_cons⟩
  | arrived last =>
    refine ⟨h.1, ?_⟩
    intro _ hends
    by_cases hrest : rest = []
    · subst hrest
      exact hlast rfl hends last rfl
    · exact h.2 hrest hends.of_cons

/-- **One step after another.**  Each step needs a directory to stand in, so there are only
directories above the end of a trail. -/
theorem isKnown_advance (disk : Disk) (follow : Bool) (steps : List Bytes) {trail : Trail}
    (habove : ∀ id ∈ trail.tail, disk.IsDirectoryNode id) :
    (disk.advance follow trail steps).IsKnown disk steps := by
  induction steps generalizing trail with
  | nil => exact ⟨habove, fun h => absurd rfl h⟩
  | cons name rest ih =>
    rw [advance]
    cases hentries : disk.entriesAt? trail with
    | none => trivial
    | some entries =>
      have hplace := isPlace_of_entriesAt? hentries habove
      simp only
      split
      next =>
        refine (ih habove).cons ?_
        rintro rfl - last hlast
        cases hlast
        exact hplace
      next hdot =>
        split
        next =>
          have hup := hplace.above
          refine (ih hup.directories_tail).cons ?_
          rintro rfl - last hlast
          cases hlast
          exact hup
        next hdots =>
          have hnamed : ¬ EndsOnSpot [name] := fun hends => (hends name rfl).elim hdot hdots
          split
          next => trivial
          next hlength =>
            cases hentry : entries[name]? with
            | none =>
              simp only
              split
              · refine ⟨hplace, fun hpieces => ?_⟩
                exact ⟨hpieces name (.head _), hdot, hdots, Nat.not_lt.1 hlength⟩
              · trivial
            | some id =>
              have hgoes : (disk.advance follow (id :: trail) rest).IsKnown disk (name :: rest) :=
                (@ih (id :: trail) hplace.directories).cons fun _ hends => absurd hends hnamed
              simp only
              split
              next target hnode =>
                split
                next hstop =>
                  obtain ⟨rfl, -⟩ := hstop
                  exact ⟨hplace.directories, fun _ hends => absurd hends hnamed⟩
                next =>
                  refine ⟨hplace, List.suffix_cons name rest, ?_⟩
                  rintro hends rfl
                  exact hnamed hends
              next => exact hgoes

/-! ## Along links -/

theorem isPlace_origin {disk : Disk} (h : disk.IsSound) {base : Trail} (hbase : disk.IsPlace base)
    (path : FilePath) : disk.IsPlace (origin base path) := by
  unfold origin
  split
  · exact h.root
  · exact hbase

/-- What is known of the end of some steps, if links are followed on a sound disk.  The steps may
be none, if they start at a place. -/
def Reach.IsKnownAlong (disk : Disk) (start : Trail) (steps : List Bytes) : Reach → Prop
  | .arrived last =>
    (∀ id ∈ last.tail, disk.IsDirectoryNode id) ∧
      (disk.IsPlace start → EndsOnSpot steps → disk.IsPlace last)
  | .absent directory name =>
    disk.IsPlace directory ∧ ((∀ step ∈ steps, FilePath.IsPiece step) → IsEntryName name)
  | .blocked _ _ _ | .failed _ => True

/-- **Along links.**  What is known of steps without links is known along links too, since what is
behind a link is followed from a place, and ends as all steps do. -/
theorem isKnown_reach {disk : Disk} (h : disk.IsSound) (follow : Bool) (links : Nat)
    {trail : Trail} (habove : ∀ id ∈ trail.tail, disk.IsDirectoryNode id) (steps : List Bytes) :
    (disk.reach follow links trail steps).IsKnownAlong disk trail steps := by
  induction links using Nat.strongRecOn generalizing trail steps with
  | ind links ih =>
    have hknown := disk.isKnown_advance follow steps habove
    generalize hreach : disk.reach follow links trail steps = outcome
    by_cases hlinks : outcome = .failed .tooManyLinks
    · rw [hlinks]
      trivial
    rcases reach_cases hreach hlinks with
      rfl | ⟨left, found, target, rest, rfl, hadvance, hleft⟩
    · cases hadvance : disk.advance follow trail steps with
      | absent directory name =>
        rw [hadvance] at hknown
        exact hknown
      | blocked directory target rest => trivial
      | failed error => trivial
      | arrived last =>
        rw [hadvance] at hknown
        refine ⟨hknown.1, fun hstart hends => ?_⟩
        by_cases hsteps : steps = []
        · subst hsteps
          cases hadvance
          exact hstart
        · exact hknown.2 hsteps hends
    · rw [hadvance] at hknown
      obtain ⟨hfound, ⟨front, rfl⟩, hne⟩ := hknown
      have horigin := isPlace_origin h hfound target
      have hbehind := ih left (Nat.lt_succ_self left) horigin.directories_tail
        (target.steps ++ rest)
      rw [hleft] at hbehind
      cases outcome with
      | blocked directory target rest => trivial
      | failed error => trivial
      | absent directory name =>
        refine ⟨hbehind.1, fun hpieces => hbehind.2 fun step hstep => ?_⟩
        rcases List.mem_append.1 hstep with htarget | hrest
        · exact FilePath.isPiece_of_mem_steps htarget
        · exact hpieces step (List.mem_append_right _ hrest)
      | arrived last =>
        refine ⟨hbehind.1, fun _ hends => hbehind.2 horigin ?_⟩
        have hrest := hne hends
        intro step hstep
        apply hends
        rw [List.getLast?_append, List.getLast?_eq_some_getLast hrest, Option.some_or] at hstep ⊢
        exact hstep

/-- What a path is known to lead to. -/
theorem isKnown_find {disk : Disk} (h : disk.IsSound) (follow : Bool) (path : FilePath) :
    (disk.find follow path).IsKnownAlong disk (origin disk.workingDirectory path) path.steps := by
  have horigin := isPlace_origin h h.workingDirectory path
  unfold find
  split
  · trivial
  · exact isKnown_reach h follow linkLimit horigin.directories_tail path.steps

/-- What is known of the place that a path leads to. -/
theorem isKnown_locate {disk : Disk} (h : disk.IsSound) {follow : Bool} {path : FilePath}
    {trail : Trail} (hlocate : disk.locate follow path = .ok trail) :
    (∀ id ∈ trail.tail, disk.IsDirectoryNode id) ∧
      (EndsOnSpot path.steps → disk.IsPlace trail) := by
  have hknown := isKnown_find h follow path
  unfold locate at hlocate
  cases hfind : disk.find follow path with
  | arrived found =>
    rw [hfind] at hknown hlocate
    cases hlocate
    exact ⟨hknown.1, hknown.2 (isPlace_origin h h.workingDirectory path)⟩
  | absent directory name => rw [hfind] at hlocate; cases hlocate
  | blocked directory target rest => rw [hfind] at hlocate; cases hlocate
  | failed error => rw [hfind] at hlocate; cases hlocate

/-! ## What changes a disk -/

theorem isSound_empty : empty.IsSound := by
  have hroot : empty.IsPlace root := by
    refine ⟨List.cons_ne_nil _ _, ?_⟩
    intro id hid
    cases List.mem_singleton.1 hid
    exact ⟨∅, rfl⟩
  refine ⟨?_, hroot, hroot⟩
  intro id node hnode
  obtain ⟨hid, rfl⟩ := Array.getElem?_eq_some_iff.1 hnode
  cases Nat.lt_one_iff.1 hid
  intro name entry hentry
  exact absurd hentry (by simp)

theorem IsPlace.mono {disk changed : Disk}
    (h : ∀ id, disk.IsDirectoryNode id → changed.IsDirectoryNode id) {trail : Trail}
    (hplace : disk.IsPlace trail) : changed.IsPlace trail :=
  ⟨hplace.ne_nil, fun id hid => h id (hplace.directories id hid)⟩

/-- Directories stay, if a directory only gives way to a directory. -/
theorem isDirectoryNode_set {disk : Disk} {id other : NodeId} {node : Node}
    (hdirectory : disk.IsDirectoryNode id → ∃ entries, node = .directory entries)
    (hother : disk.IsDirectoryNode other) :
    { disk with nodes := disk.nodes.setIfInBounds id node }.IsDirectoryNode other := by
  by_cases hsame : id = other
  · subst hsame
    obtain ⟨entries, rfl⟩ := hdirectory hother
    obtain ⟨found, hfound⟩ := hother
    exact ⟨entries, Array.getElem?_setIfInBounds_self_of_lt
      (Array.getElem?_eq_some_iff.1 hfound).1⟩
  · obtain ⟨entries, hentries⟩ := hother
    exact ⟨entries, (Array.getElem?_setIfInBounds_ne hsame).trans hentries⟩

/-- Directories stay when there is one more node. -/
theorem isDirectoryNode_push {disk : Disk} (node : Node) {other : NodeId}
    (hother : disk.IsDirectoryNode other) :
    { disk with nodes := disk.nodes.push node }.IsDirectoryNode other := by
  obtain ⟨entries, hentries⟩ := hother
  have hbound := (Array.getElem?_eq_some_iff.1 hentries).1
  refine ⟨entries, (Array.getElem?_push_lt hbound).trans ?_⟩
  rw [← hentries, Array.getElem?_eq_getElem hbound]

/-- Another node in the place of one keeps a disk sound. -/
theorem IsSound.set {disk : Disk} (h : disk.IsSound) {id : NodeId} {node : Node}
    (hproper : node.IsProper)
    (hdirectory : disk.IsDirectoryNode id → ∃ entries, node = .directory entries) :
    { disk with nodes := disk.nodes.setIfInBounds id node }.IsSound := by
  refine ⟨?_, h.root.mono fun _ => isDirectoryNode_set hdirectory,
    h.workingDirectory.mono fun _ => isDirectoryNode_set hdirectory⟩
  intro other found hfound
  by_cases hsame : id = other
  · subst hsame
    obtain ⟨hbound, rfl⟩ := Array.getElem?_eq_some_iff.1 hfound
    rw [Array.getElem_setIfInBounds_self]
    exact hproper
  · exact h.proper other found ((Array.getElem?_setIfInBounds_ne hsame).symm.trans hfound)

/-- So does one more node. -/
theorem IsSound.push {disk : Disk} (h : disk.IsSound) {node : Node} (hproper : node.IsProper) :
    { disk with nodes := disk.nodes.push node }.IsSound := by
  refine ⟨?_, h.root.mono fun _ => isDirectoryNode_push node,
    h.workingDirectory.mono fun _ => isDirectoryNode_push node⟩
  intro other found hfound
  rw [Array.getElem?_push] at hfound
  split at hfound
  · cases hfound
    exact hproper
  · exact h.proper other found hfound

/-- A new entry keeps a disk sound, if it has a name that can be looked up, and keeps the
directories. -/
theorem IsSound.insert {disk changed : Disk} (h : disk.IsSound) {directory : Trail}
    {name : Bytes} (hname : IsEntryName name) {node : Node} (hproper : node.IsProper)
    {id : NodeId} (hinsert : disk.insert directory name node = .ok (id, changed)) :
    changed.IsSound ∧ ∀ other, disk.IsDirectoryNode other → changed.IsDirectoryNode other := by
  unfold Disk.insert at hinsert
  split at hinsert
  next parent above entries hat =>
    cases hinsert
    have hentries : (Node.directory (entries.insert name disk.nodes.size)).IsProper := by
      intro other found hfound
      rw [Std.TreeMap.getElem?_insert] at hfound
      split at hfound
      next hcompare =>
        cases Std.LawfulEqOrd.eq_of_compare hcompare
        exact hname
      next => exact h.proper parent _ hat other found hfound
    refine ⟨(h.set hentries fun _ => ⟨_, rfl⟩).push hproper, ?_⟩
    intro other hother
    exact isDirectoryNode_push _ (isDirectoryNode_set (fun _ => ⟨_, rfl⟩) hother)
  next => cases hinsert

/-- Writing a file keeps a disk sound. -/
theorem IsSound.writeFile {disk changed : Disk} (h : disk.IsSound) {path : FilePath}
    {content : Content} {id : NodeId} (hwrite : disk.writeFile path content = .ok (id, changed)) :
    changed.IsSound := by
  unfold Disk.writeFile at hwrite
  split at hwrite
  next trail hfind =>
    split at hwrite
    next file above old hat =>
      cases hwrite
      refine h.set trivial ?_
      rintro ⟨entries, hentries⟩
      cases hentries.symm.trans hat
    next => cases hwrite
    next => cases hwrite
  next directory name hfind =>
    have hknown := isKnown_find h true path
    rw [hfind] at hknown
    have hname := hknown.2 fun _ => FilePath.isPiece_of_mem_steps
    have hproper : (Node.file content).IsProper := trivial
    exact (h.insert hname hproper hwrite).1
  next => cases hwrite
  next => cases hwrite

/-- So does taking away the right to open a file. -/
theorem IsSound.forbid {disk changed : Disk} (h : disk.IsSound) {path : FilePath}
    (hforbid : disk.forbid path = .ok changed) : changed.IsSound := by
  unfold Disk.forbid at hforbid
  split at hforbid
  next => cases hforbid
  next file content allowed hfile =>
    cases hforbid
    obtain ⟨above, -, hnode⟩ := fileAt_eq_ok_iff.1 hfile
    refine h.set trivial ?_
    rintro ⟨entries, hentries⟩
    cases hentries.symm.trans hnode

/-- So does making a link. -/
theorem IsSound.makeLink {disk changed : Disk} (h : disk.IsSound) {path target : FilePath}
    (hmake : disk.makeLink path target = .ok changed) : changed.IsSound := by
  unfold Disk.makeLink at hmake
  split at hmake
  next => cases hmake
  next directory name hfind =>
    have hknown := isKnown_find h false path
    rw [hfind] at hknown
    have hname := hknown.2 fun _ => FilePath.isPiece_of_mem_steps
    cases hinsert : disk.insert directory name (.link target) with
    | error error =>
      rw [hinsert] at hmake
      cases hmake
    | ok inserted =>
      rw [hinsert] at hmake
      cases hmake
      have hproper : (Node.link target).IsProper := trivial
      exact (h.insert hname hproper hinsert).1
  next => cases hmake
  next => cases hmake

/-- So does making directories. -/
theorem IsSound.makeDirectoriesFrom {disk changed : Disk} (h : disk.IsSound) {trail last : Trail}
    {steps : List Bytes} (habove : ∀ id ∈ trail.tail, disk.IsDirectoryNode id)
    (hpieces : ∀ step ∈ steps, FilePath.IsPiece step)
    (hmake : disk.makeDirectoriesFrom trail steps = .ok (last, changed)) : changed.IsSound := by
  induction steps generalizing disk trail with
  | nil =>
    cases hmake
    exact h
  | cons name rest ih =>
    have hrest : ∀ step ∈ rest, FilePath.IsPiece step := fun step hstep =>
      hpieces step (.tail _ hstep)
    have hknown := isKnown_reach h true linkLimit habove [name]
    rw [Disk.makeDirectoriesFrom] at hmake
    split at hmake
    next next hreach =>
      rw [hreach] at hknown
      exact ih h hknown.1 hrest hmake
    next directory missing hreach =>
      rw [hreach] at hknown
      obtain ⟨hdirectory, hname⟩ := hknown
      split at hmake
      next id inserted hinsert =>
        have hone : ∀ step ∈ [name], FilePath.IsPiece step := by
          intro step hstep
          cases List.mem_singleton.1 hstep
          exact hpieces name (.head _)
        have hempty : (Node.directory ∅).IsProper := fun _ _ hentry => absurd hentry (by simp)
        obtain ⟨hsound, hkeeps⟩ := h.insert (hname hone) hempty hinsert
        have hnext : ∀ other ∈ (id :: directory).tail, inserted.IsDirectoryNode other :=
          (hdirectory.mono hkeeps).directories
        exact ih hsound hnext hrest hmake
      next => cases hmake
    next => cases hmake
    next => cases hmake

/-- So does making the directories that some of the steps of a path name. -/
theorem IsSound.makeSteps {disk changed : Disk} (h : disk.IsSound) {path : FilePath}
    {steps : List Bytes} (hpieces : ∀ step ∈ steps, FilePath.IsPiece step)
    (hmake : (disk.makeDirectoriesFrom (origin disk.workingDirectory path) steps).map (·.2) =
      .ok changed) : changed.IsSound := by
  have horigin := isPlace_origin h h.workingDirectory path
  cases hfrom : disk.makeDirectoriesFrom (origin disk.workingDirectory path) steps with
  | error error =>
    rw [hfrom] at hmake
    cases hmake
  | ok made =>
    rw [hfrom] at hmake
    cases hmake
    exact h.makeDirectoriesFrom horigin.directories_tail hpieces hfrom

/-- So does taking out an entry. -/
theorem IsSound.remove {disk changed : Disk} (h : disk.IsSound) {path : FilePath}
    (hremove : disk.remove path = .ok changed) : changed.IsSound := by
  unfold Disk.remove at hremove
  split at hremove
  next => cases hremove
  next parent above name hlocate hname =>
    split at hremove
    next entries hentries =>
      cases hremove
      refine h.set ?_ fun _ => ⟨_, rfl⟩
      intro other id hid
      rw [Std.TreeMap.getElem?_erase] at hid
      split at hid
      next => cases hid
      next => exact h.proper parent _ hentries other id hid
    next => cases hremove
  next => cases hremove

/-! ## Disks that come about -/

/-- That a disk comes from an empty one by what may be done to disks. -/
inductive IsBuilt : Disk → Prop where
  /-- Nothing was done yet. -/
  | start : IsBuilt empty
  /-- A file is written. -/
  | writes {disk changed : Disk} (h : IsBuilt disk) {path : FilePath} {content : Content}
    {id : NodeId} (hwrite : disk.writeFile path content = .ok (id, changed)) : IsBuilt changed
  /-- The right to open a file is taken away. -/
  | forbids {disk changed : Disk} (h : IsBuilt disk) {path : FilePath}
    (hforbid : disk.forbid path = .ok changed) : IsBuilt changed
  /-- A link is made. -/
  | links {disk changed : Disk} (h : IsBuilt disk) {path target : FilePath}
    (hmake : disk.makeLink path target = .ok changed) : IsBuilt changed
  /-- A directory is made. -/
  | makes {disk changed : Disk} (h : IsBuilt disk) {path : FilePath}
    (hmake : disk.makeDirectories path = .ok changed) : IsBuilt changed
  /-- The directories above a path are made. -/
  | makesAbove {disk changed : Disk} (h : IsBuilt disk) {path : FilePath}
    (hmake : disk.makeParents path = .ok changed) : IsBuilt changed
  /-- What a path names is taken out. -/
  | removes {disk changed : Disk} (h : IsBuilt disk) {path : FilePath}
    (hremove : disk.remove path = .ok changed) : IsBuilt changed
  /-- Relative paths start in another directory from now on. -/
  | enters {disk : Disk} (h : IsBuilt disk) {path : FilePath} {trail : Trail}
    (hlocate : disk.locate true path = .ok trail) (hdirectory : (disk.entriesAt? trail).isSome) :
    IsBuilt { disk with workingDirectory := trail }

/-- **Whatever is done** to disks, they are sound. -/
theorem IsBuilt.isSound {disk : Disk} (h : disk.IsBuilt) : disk.IsSound := by
  induction h with
  | start => exact isSound_empty
  | writes _ hwrite ih => exact ih.writeFile hwrite
  | forbids _ hforbid ih => exact ih.forbid hforbid
  | links _ hmake ih => exact ih.makeLink hmake
  | makes _ hmake ih => exact ih.makeSteps (fun _ => FilePath.isPiece_of_mem_steps) hmake
  | makesAbove _ hmake ih =>
    exact ih.makeSteps
      (fun _ hstep => FilePath.isPiece_of_mem_steps (List.dropLast_subset _ hstep)) hmake
  | removes _ hremove ih => exact ih.remove hremove
  | @enters disk _ _ trail hlocate hdirectory ih =>
    obtain ⟨entries, hentries⟩ := Option.isSome_iff_exists.1 hdirectory
    have hplace := isPlace_of_entriesAt? hentries (isKnown_locate ih hlocate).1
    have hsame : ∀ other, disk.IsDirectoryNode other →
        IsDirectoryNode { disk with workingDirectory := trail } other := fun _ hother => hother
    exact ⟨ih.proper, ih.root.mono hsame, hplace.mono hsame⟩

end Disk

/-! ## Base names -/

/-- A path without a base name ends on the spot. -/
theorem FilePath.endsOnSpot_of_fileName? {path : FilePath} (h : path.fileName? = none) :
    Disk.EndsOnSpot path.steps := by
  have hcomponents : path.components =
      (if path.isAbsolute then [.root]
        else if (Delimited.pieces separator path.bytes).head? = some [dot] then [.current]
        else []) ++ path.names.filterMap component? := by
    unfold components names
    simp only
    congr 1
    rw [List.filterMap_filter]
    congr 1
    funext piece
    by_cases hpiece : piece = []
    · subst hpiece
      rfl
    · simp [hpiece]
  have hnames : Disk.EndsOnSpot path.names := by
    intro step hstep
    obtain ⟨front, hfront⟩ := List.getLast?_eq_some_iff.1 hstep
    have hne := (isPiece_of_mem_names (List.mem_of_getLast? hstep)).ne_nil
    refine Decidable.byContradiction fun hsome => ?_
    have hneither := not_or.1 hsome
    have hnamed : component? step = some (.named step) := by
      rw [component?, if_neg (not_or.2 ⟨hne, hneither.1⟩), if_neg hneither.2]
    rw [fileName?, hcomponents, hfront, List.filterMap_append, ← List.append_assoc,
      List.filterMap_cons_some hnamed, List.filterMap_nil, List.getLast?_concat] at h
    cases h
  rcases path.steps_eq with hsteps | hsteps
  · rw [hsteps]
    exact hnames
  · rw [hsteps]
    intro step hstep
    rw [List.getLast?_concat] at hstep
    exact .inl (Option.some.inj hstep).symm

/-- **Base names.**  What can be opened as a file on a sound disk has a base name. -/
theorem Disk.isSome_fileName?_of_openFile {disk : Disk} (h : disk.IsSound) {path : FilePath}
    {file : NodeId} {content : Content} (hopen : disk.openFile path = .ok (file, content)) :
    path.fileName?.isSome = true := by
  rw [Option.isSome_iff_ne_none]
  intro hnone
  obtain ⟨above, hlocate, hnode⟩ := fileAt_eq_ok_iff.1 (fileAt_of_openFile hopen)
  have hplace := (isKnown_locate h hlocate).2 (FilePath.endsOnSpot_of_fileName? hnone)
  obtain ⟨entries, hentries⟩ := hplace.directories file List.mem_cons_self
  cases hentries.symm.trans hnode

end WadCatalog
