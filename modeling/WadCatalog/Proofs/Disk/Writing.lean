import WadCatalog.Proofs.Disk.Resolution

/-
  What was written is what is opened.

  Writing a file looks its path up once, and opening it looks the path up again on a disk that has
  changed in between.  What has to be shown is that the second look ends at the file.

  1. **A disk that has more** (`Extends`): each directory still has the entries it had, and the links
     are the same.  Both ways of writing lead to such a disk, since one puts a file where a file was
     and the other gives a directory one more name (`extends_set`, `extends_push`).
  2. **A second look** (`Extends.advance`, `Extends.reach`) then ends where the first did.  Where the
     first missed the last name, the second goes on with that name in the same directory.  The
     induction is on the steps up to a link, and on the links that are left along links.
  3. **Both together** (`openFile_of_writeFile`).
-/

namespace WadCatalog.Disk

/-! ## A disk that has more -/

/-- That a disk still has all entries that it had, and the same links. -/
structure Extends (disk changed : Disk) : Prop where
  /-- A directory has what it had. -/
  entries : ∀ (trail : Trail) (entries : Std.TreeMap Bytes NodeId),
    disk.entriesAt? trail = some entries → ∃ more, changed.entriesAt? trail = some more ∧
      ∀ (name : Bytes) (id : NodeId), entries[name]? = some id → more[name]? = some id
  /-- Links are neither made nor taken away. -/
  links : ∀ (id : NodeId) (target : FilePath),
    changed.nodes[id]? = some (.link target) ↔ disk.nodes[id]? = some (.link target)

theorem Extends.trans {disk middle changed : Disk} (hfirst : disk.Extends middle)
    (hsecond : middle.Extends changed) : disk.Extends changed where
  entries trail entries hentries := by
    obtain ⟨more, hmore, hkept⟩ := hfirst.entries trail entries hentries
    obtain ⟨most, hmost, hkeptMore⟩ := hsecond.entries trail more hmore
    exact ⟨most, hmost, fun name id hid => hkeptMore name id (hkept name id hid)⟩
  links id target := (hsecond.links id target).trans (hfirst.links id target)

/-- A disk has more if a node gives way to one of its kind, a directory to one that has more. -/
theorem extends_set {disk : Disk} {id : NodeId} {node : Node}
    (hlink : ∀ target, disk.nodes[id]? ≠ some (.link target)) (hnode : ∀ target, node ≠ .link target)
    (hentries : ∀ entries, disk.nodes[id]? = some (.directory entries) →
      ∃ more, node = .directory more ∧
        ∀ (name : Bytes) (other : NodeId), entries[name]? = some other → more[name]? = some other) :
    disk.Extends { disk with nodes := disk.nodes.setIfInBounds id node } where
  entries trail entries h := by
    obtain ⟨here, above, rfl, hhere⟩ := exists_node_of_entriesAt? h
    by_cases hsame : id = here
    · subst hsame
      obtain ⟨more, rfl, hkept⟩ := hentries entries hhere
      exact ⟨more, entriesAt?_cons.2 (Array.getElem?_setIfInBounds_self_of_lt
        (Array.getElem?_eq_some_iff.1 hhere).1), hkept⟩
    · exact ⟨entries, entriesAt?_cons.2 ((Array.getElem?_setIfInBounds_ne hsame).trans hhere),
        fun _ _ hother => hother⟩
  links other target := by
    by_cases hsame : id = other
    · subst hsame
      refine iff_of_false (fun h => ?_) (hlink target)
      obtain ⟨hbound, hfound⟩ := Array.getElem?_eq_some_iff.1 h
      rw [Array.getElem_setIfInBounds_self] at hfound
      exact hnode target hfound
    · rw [Array.getElem?_setIfInBounds_ne hsame]

/-- So does a disk with one more node that is no link. -/
theorem extends_push {disk : Disk} {node : Node} (hnode : ∀ target, node ≠ .link target) :
    disk.Extends { disk with nodes := disk.nodes.push node } where
  entries trail entries h := by
    obtain ⟨here, above, rfl, hhere⟩ := exists_node_of_entriesAt? h
    have hbound := (Array.getElem?_eq_some_iff.1 hhere).1
    refine ⟨entries, entriesAt?_cons.2 ?_, fun _ _ hother => hother⟩
    rw [← hhere]
    exact (Array.getElem?_push_lt hbound).trans (Array.getElem?_eq_getElem hbound).symm
  links other target := by
    rw [Array.getElem?_push]
    split
    next hlast =>
      refine iff_of_false (fun h => hnode target (Option.some.inj h)) ?_
      rw [hlast, Array.getElem?_eq_none (Nat.le_refl _)]
      exact nofun
    next => exact .rfl

/-! ## One step -/

/-- That a name is looked up wherever it comes up as a step. -/
structure IsLookedUp (name : Bytes) : Prop where
  ne_dot : name ≠ [FilePath.dot]
  ne_dots : name ≠ [FilePath.dot, FilePath.dot]
  length_le : name.length ≤ nameLimit

/-- What one step comes to. -/
inductive Step (disk : Disk) (trail : Trail) : Bytes → Reach → Prop where
  /-- It cannot be taken. -/
  | fails (name : Bytes) (error : DiskError) : Step disk trail name (.failed error)
  /-- It stays on the spot. -/
  | stays {entries : Std.TreeMap Bytes NodeId} (hentries : disk.entriesAt? trail = some entries) :
    Step disk trail [FilePath.dot] (.arrived trail)
  /-- It goes up. -/
  | rises {entries : Std.TreeMap Bytes NodeId} (hentries : disk.entriesAt? trail = some entries) :
    Step disk trail [FilePath.dot, FilePath.dot] (.arrived (above trail))
  /-- There is no entry of that name. -/
  | misses {entries : Std.TreeMap Bytes NodeId} {name : Bytes}
    (hentries : disk.entriesAt? trail = some entries) (hname : IsLookedUp name)
    (hnone : entries[name]? = none) : Step disk trail name (.absent trail name)
  /-- There is a link of that name. -/
  | meets {entries : Std.TreeMap Bytes NodeId} {name : Bytes} {id : NodeId} {target : FilePath}
    (hentries : disk.entriesAt? trail = some entries) (hname : IsLookedUp name)
    (hentry : entries[name]? = some id) (hlink : disk.nodes[id]? = some (.link target)) :
    Step disk trail name (.blocked trail target [])
  /-- There is something else of that name. -/
  | enters {entries : Std.TreeMap Bytes NodeId} {name : Bytes} {id : NodeId}
    (hentries : disk.entriesAt? trail = some entries) (hname : IsLookedUp name)
    (hentry : entries[name]? = some id) (hlink : ∀ target, disk.nodes[id]? ≠ some (.link target)) :
    Step disk trail name (.arrived (id :: trail))

/-- Each step comes to one of these. -/
theorem step_advance (disk : Disk) (trail : Trail) (name : Bytes) :
    disk.Step trail name (disk.advance true trail [name]) := by
  rw [advance]
  cases hentries : disk.entriesAt? trail with
  | none => exact .fails name _
  | some entries =>
    simp only
    split
    next hdot =>
      subst hdot
      exact .stays hentries
    next hdot =>
      split
      next hdots =>
        subst hdots
        exact .rises hentries
      next hdots =>
        split
        next => exact .fails name _
        next hlength =>
          have hname : IsLookedUp name := ⟨hdot, hdots, Nat.not_lt.1 hlength⟩
          cases hentry : entries[name]? with
          | none => exact .misses hentries hname hentry
          | some id =>
            simp only
            split
            next target hlink =>
              rw [if_neg (by simp)]
              exact .meets hentries hname hentry hlink
            next hlink => exact .enters hentries hname hentry hlink

/-- And to no other, unless it cannot be taken. -/
theorem Step.advance_eq {disk : Disk} {trail : Trail} {name : Bytes} {outcome : Reach}
    (h : disk.Step trail name outcome) (hfails : ∀ error, outcome ≠ .failed error) :
    disk.advance true trail [name] = outcome := by
  cases h with
  | fails _ error => exact absurd rfl (hfails error)
  | stays hentries =>
    rw [advance, hentries]
    exact if_pos rfl
  | rises hentries =>
    rw [advance, hentries]
    exact (if_neg (by decide)).trans (if_pos rfl)
  | misses hentries hname hnone =>
    rw [advance, hentries]
    simp only [if_neg hname.ne_dot, if_neg hname.ne_dots, if_neg (Nat.not_lt.2 hname.length_le),
      hnone, if_true]
  | meets hentries hname hentry hlink =>
    rw [advance, hentries]
    simp only [if_neg hname.ne_dot, if_neg hname.ne_dots, if_neg (Nat.not_lt.2 hname.length_le),
      hentry, hlink]
    exact if_neg (by simp)
  | enters hentries hname hentry hlink =>
    rw [advance, hentries]
    simp only [if_neg hname.ne_dot, if_neg hname.ne_dots, if_neg (Nat.not_lt.2 hname.length_le),
      hentry]
    rfl

/-- A name that is missed at the end of steps is missed in the directory they lead to. -/
theorem advance_of_absent {disk : Disk} {trail directory : Trail} {steps : List Bytes}
    {name : Bytes} (h : disk.advance true trail steps = .absent directory name) :
    disk.advance true directory [name] = .absent directory name := by
  induction steps generalizing trail with
  | nil => cases h
  | cons first rest ih =>
    by_cases hrest : rest = []
    · subst hrest
      have hstep := disk.step_advance trail first
      rw [h] at hstep
      cases hstep with
      | misses => exact h
    · have hsplit := disk.advance_append trail [first] hrest
      rw [List.singleton_append, h] at hsplit
      cases hfirst : disk.advance true trail [first] with
      | arrived next =>
        rw [hfirst] at hsplit
        exact ih hsplit.symm
      | absent _ _ => rw [hfirst] at hsplit; cases hsplit
      | blocked _ _ _ => rw [hfirst] at hsplit; cases hsplit
      | failed _ => rw [hfirst] at hsplit; cases hsplit

/-- So it is along links. -/
theorem advance_of_reach_absent {disk : Disk} {links : Nat} {trail directory : Trail}
    {steps : List Bytes} {name : Bytes}
    (h : disk.reach true links trail steps = .absent directory name) :
    disk.advance true directory [name] = .absent directory name := by
  induction links using Nat.strongRecOn generalizing trail steps with
  | ind links ih =>
    rcases reach_cases h nofun with hadvance | ⟨left, _, _, _, rfl, -, hreach⟩
    · exact advance_of_absent hadvance
    · exact ih left (Nat.lt_succ_self left) hreach

/-! ## A second look -/

/-- That where steps ended once leads to a place on a disk that has changed: it is that place, or the
last name was missed and is found now. -/
def Reach.Becomes (changed : Disk) (last : Trail) (outcome : Reach) : Prop :=
  outcome = .arrived last ∨
    ∃ directory name, outcome = .absent directory name ∧
      changed.advance true directory [name] = .arrived last

theorem Reach.not_becomes_failed {changed : Disk} {last : Trail} {error : DiskError} :
    ¬ Reach.Becomes changed last (.failed error) := by
  rintro (h | ⟨_, _, h, -⟩) <;> cases h

section Again

variable {disk changed : Disk} (h : disk.Extends changed)
include h

/-- One step comes to the same again, unless its name was missed. -/
theorem Extends.advance_one (trail : Trail) (name : Bytes) :
    (∃ error, disk.advance true trail [name] = .failed error) ∨
      disk.advance true trail [name] = .absent trail name ∨
      (changed.advance true trail [name] = disk.advance true trail [name] ∧
        ∀ directory missed, disk.advance true trail [name] ≠ .absent directory missed) := by
  have hstep := disk.step_advance trail name
  generalize disk.advance true trail [name] = outcome at hstep
  cases hstep with
  | fails _ error => exact .inl ⟨error, rfl⟩
  | misses => exact .inr (.inl rfl)
  | stays hentries =>
    obtain ⟨more, hmore, -⟩ := h.entries trail _ hentries
    exact .inr (.inr ⟨(Step.stays hmore).advance_eq nofun, nofun⟩)
  | rises hentries =>
    obtain ⟨more, hmore, -⟩ := h.entries trail _ hentries
    exact .inr (.inr ⟨(Step.rises hmore).advance_eq nofun, nofun⟩)
  | meets hentries hname hentry hlink =>
    obtain ⟨more, hmore, hkept⟩ := h.entries trail _ hentries
    have hlater := (h.links _ _).2 hlink
    exact .inr (.inr ⟨(Step.meets hmore hname (hkept _ _ hentry) hlater).advance_eq nofun, nofun⟩)
  | enters hentries hname hentry hlink =>
    obtain ⟨more, hmore, hkept⟩ := h.entries trail _ hentries
    have hlater := fun target htarget => hlink target ((h.links _ target).1 htarget)
    exact .inr (.inr ⟨(Step.enters hmore hname (hkept _ _ hentry) hlater).advance_eq nofun, nofun⟩)

/-- **A second look**, up to a link. -/
theorem Extends.advance (last trail : Trail) (steps : List Bytes) :
    ((disk.advance true trail steps).Becomes changed last →
      changed.advance true trail steps = .arrived last) ∧
    ∀ directory target rest, disk.advance true trail steps = .blocked directory target rest →
      changed.advance true trail steps = .blocked directory target rest := by
  have hfailed : ∀ (error : DiskError) (goal : Prop),
      (Reach.failed error).Becomes changed last → goal :=
    fun _ _ hfalse => absurd hfalse Reach.not_becomes_failed
  induction steps generalizing trail with
  | nil =>
    refine ⟨?_, nofun⟩
    rintro (harrived | ⟨_, _, habsent, -⟩)
    · exact harrived
    · cases habsent
  | cons name rest ih =>
    have hone := h.advance_one trail name
    by_cases hrest : rest = []
    · subst hrest
      rcases hone with ⟨error, hnever⟩ | habsent | ⟨hsame, hmissed⟩
      · rw [hnever]
        exact ⟨hfailed _ _, nofun⟩
      · rw [habsent]
        refine ⟨?_, nofun⟩
        rintro (hfalse | ⟨_, _, heq, hfound⟩)
        · cases hfalse
        · cases heq
          exact hfound
      · rw [hsame]
        refine ⟨?_, fun _ _ _ hblocked => hblocked⟩
        rintro (harrived | ⟨directory, missed, habsent, -⟩)
        · exact harrived
        · exact absurd habsent (hmissed directory missed)
    · -- the first step is taken by itself, and the others from where it leads
      have hsplit : ∀ other : Disk, other.advance true trail (name :: rest) =
          Reach.andThen other rest (other.advance true trail [name]) :=
        fun other => other.advance_append trail [name] hrest
      rw [hsplit, hsplit]
      rcases hone with ⟨error, hnever⟩ | habsent | ⟨hsame, -⟩
      · rw [hnever]
        exact ⟨hfailed _ _, nofun⟩
      · rw [habsent]
        exact ⟨hfailed _ _, nofun⟩
      · rw [hsame]
        cases disk.advance true trail [name] with
        | arrived next => exact ih next
        | absent directory missed => exact ⟨hfailed _ _, nofun⟩
        | failed error => exact ⟨hfailed _ _, nofun⟩
        | blocked directory target left =>
          refine ⟨?_, fun _ _ _ hblocked => hblocked⟩
          rintro (hfalse | ⟨_, _, hfalse, -⟩) <;> cases hfalse

/-- **A second look.** -/
theorem Extends.reach {links : Nat} {trail last : Trail} {steps : List Bytes}
    (hends : (disk.reach true links trail steps).Becomes changed last) :
    changed.reach true links trail steps = .arrived last := by
  induction links using Nat.strongRecOn generalizing trail steps with
  | ind links ih =>
    have hlinks : disk.reach true links trail steps ≠ .failed .tooManyLinks := by
      intro hmany
      rw [hmany] at hends
      exact Reach.not_becomes_failed hends
    rw [reach_eq_arrived_iff]
    rcases reach_cases rfl hlinks with
      hadvance | ⟨left, directory, target, rest, rfl, hadvance, hreach⟩
    · rw [← hadvance] at hends
      exact .inl ((h.advance last trail steps).1 hends)
    · refine .inr ⟨left, directory, target, rest, rfl,
        (h.advance last trail steps).2 _ _ _ hadvance, ?_⟩
      rw [← hreach] at hends
      exact ih left (Nat.lt_succ_self left) hends

/-- A path whose look-up ends at a place then leads there. -/
theorem Extends.locate (hdirectory : changed.workingDirectory = disk.workingDirectory)
    {last : Trail} {path : FilePath} (hends : (disk.find true path).Becomes changed last) :
    changed.locate true path = .ok last := by
  unfold find at hends
  cases herror : pathError? path with
  | some error =>
    rw [herror] at hends
    exact absurd hends Reach.not_becomes_failed
  | none =>
    rw [herror] at hends
    rw [locate_eq_ok_iff, hdirectory]
    exact ⟨herror, h.reach hends⟩

end Again

/-! ## Both together -/

/-- A new file in a directory where its name was missed is found by that name. -/
theorem insert_of_absent {disk changed : Disk} {directory : Trail} {name : Bytes}
    (habsent : disk.advance true directory [name] = .absent directory name) {content : Content}
    {file : NodeId} (hinsert : disk.insert directory name (.file content) = .ok (file, changed)) :
    disk.Extends changed ∧ changed.workingDirectory = disk.workingDirectory ∧
      changed.nodes[file]? = some (.file content) ∧
      changed.advance true directory [name] = .arrived (file :: directory) := by
  have hstep := disk.step_advance directory name
  rw [habsent] at hstep
  cases hstep with
  | @misses entries _ hentries hname hnone =>
    obtain ⟨parent, above, rfl, hparent⟩ := exists_node_of_entriesAt? hentries
    have hbound := (Array.getElem?_eq_some_iff.1 hparent).1
    let named : Disk := { disk with
      nodes := disk.nodes.setIfInBounds parent (.directory (entries.insert name disk.nodes.size)) }
    have hat : disk.nodeAt? (parent :: above) = some (.directory entries) := hparent
    unfold Disk.insert at hinsert
    simp only [hat] at hinsert
    cases hinsert
    have hnamed : named.nodes.size = disk.nodes.size := Array.size_setIfInBounds
    have hfirst : disk.Extends named := by
      refine extends_set (by rw [hparent]; nofun) nofun ?_
      intro found hfound
      cases hparent.symm.trans hfound
      refine ⟨_, rfl, ?_⟩
      intro other id hid
      rw [Std.TreeMap.getElem?_insert, if_neg, hid]
      intro heq
      cases Std.LawfulEqOrd.eq_of_compare heq
      rw [hnone] at hid
      cases hid
    have hsecond : named.Extends { named with nodes := named.nodes.push (.file content) } :=
      extends_push nofun
    have hfile : (named.nodes.push (.file content))[disk.nodes.size]? = some (.file content) := by
      rw [← hnamed]
      exact Array.getElem?_push_size
    have hdirectory : (named.nodes.push (.file content))[parent]? =
        some (.directory (entries.insert name disk.nodes.size)) := by
      rw [Array.getElem?_push, if_neg (by omega)]
      exact Array.getElem?_setIfInBounds_self_of_lt hbound
    refine ⟨hfirst.trans hsecond, rfl, hfile, ?_⟩
    refine (Step.enters (entriesAt?_cons.2 hdirectory) hname
      Std.TreeMap.getElem?_insert_self ?_).advance_eq nofun
    intro target htarget
    cases hfile.symm.trans htarget

/-- **What was written is what is opened.** -/
theorem openFile_of_writeFile {disk changed : Disk} {path : FilePath} {content : Content}
    {file : NodeId} (hwrite : disk.writeFile path content = .ok (file, changed)) :
    changed.openFile path = .ok (file, content) := by
  have hopened : ∀ trail : Trail, changed.locate true path = .ok (file :: trail) →
      changed.nodes[file]? = some (.file content) →
        changed.openFile path = .ok (file, content) := by
    intro trail hlocate hfile
    exact openFile_of_fileAt (fileAt_eq_ok_iff.2 ⟨trail, hlocate, hfile⟩)
  unfold writeFile at hwrite
  split at hwrite
  next trail hfind =>
    split at hwrite
    next id above old hold =>
      cases hwrite
      have hfile : disk.nodes[file]? = some (.file old true) := hold
      have hbound := (Array.getElem?_eq_some_iff.1 hfile).1
      have hextends : disk.Extends
          { disk with nodes := disk.nodes.setIfInBounds file (.file content) } := by
        refine extends_set (by rw [hfile]; nofun) nofun ?_
        intro entries hentries
        cases hfile.symm.trans hentries
      exact hopened above (hextends.locate rfl (.inl hfind))
        (Array.getElem?_setIfInBounds_self_of_lt hbound)
    next => cases hwrite
    next => cases hwrite
  next directory name hfind =>
    have hmissed : disk.advance true directory [name] = .absent directory name := by
      unfold find at hfind
      split at hfind
      next => cases hfind
      next => exact advance_of_reach_absent hfind
    obtain ⟨hextends, hworking, hfile, hfound⟩ := insert_of_absent hmissed hwrite
    exact hopened directory
      (hextends.locate hworking (.inr ⟨directory, name, hfind, hfound⟩)) hfile
  next => cases hwrite
  next => cases hwrite

end WadCatalog.Disk
