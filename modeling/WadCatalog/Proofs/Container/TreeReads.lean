import WadCatalog.Proofs.Container.ReadContract
import WadCatalog.Proofs.Container.TreeListing
import WadCatalog.Proofs.Disk.Writing

/-
  What a tree gives while its files change.

  A tree keeps the path and the length of each file and opens the file anew for each load.  Three
  lengths meet in a load: that of the buffer, the one that was recorded, and the one the file has by
  now.

  1. **One load** (`load_eq_take`, `load_eq_nil`).  It gives the front of what the path leads to now,
     as long as there is room and no more than was recorded, or nothing.
  2. **Which file** (`exists_entry_of_mem`).  A resource leads to the last file that it was the answer
     for; a registry may give the same answer to several.
  3. **Whatever happens** (`Session.Happens`, `Session.Later`).  Files are written and removed, other
     containers are opened, and all of them are asked things.  One step leaves the tree as it is
     (`Happens.tree_stays`), and so does a whole history, by induction on its steps.
  4. **All together** (`reads_present_files`).  Writing a file by its path is a case of what may have
     happened, and what was written is what the path leads to then (`Disk.openFile_of_writeFile`).
-/

namespace WadCatalog

namespace TreeContainer

/-! ## One load -/

section Load

variable {disk : Disk} {files : TreeContainer} {resource : ResourceId} {entry : FileEntry}
  (hentry : files.entry? resource = some entry)
include hentry

theorem sizeOf_eq_min : files.sizeOf resource = min entry.length sizeLimit := by
  rw [sizeOf, hentry]

/-- A load gives the front of what the file holds now, as long as there is room and no more than the
recorded length. -/
theorem load_eq_take {file : NodeId} {content : Content}
    (hopen : disk.openFile entry.path = .ok (file, content)) (room : Nat) :
    files.load disk resource room =
      content.bytes.take (min room (min entry.length sizeLimit)) := by
  have hsteady := Stream.isSteady_openFile hopen
  rw [load, hentry, sizeOf_eq_min hentry]
  simp only
  split
  next hnothing => rw [hnothing, List.take_zero]
  next => exact hsteady.readAt_eq (by decide) _

/-- If the file cannot be opened any more, it gives nothing. -/
theorem load_eq_nil {error : DiskError} (hopen : disk.openFile entry.path = .error error)
    (room : Nat) : files.load disk resource room = [] := by
  have hunavailable : Stream.openFile disk entry.path = .unavailable (some entry.path) := by
    rw [Stream.openFile, hopen]
  rw [load, hentry]
  simp only [hunavailable]
  split <;> rfl

end Load

/-! ## Which file -/

/-- A resource of a tree leads to the last file that it was the answer for. -/
theorem exists_entry_of_mem {ρ : Type} [Registry ρ] {disk : Disk} {config : Config}
    {registry after : ρ} {root : FilePath} {id : ContainerId} {container : TreeContainer}
    (hopened : openAt disk config registry root id = (container, after)) {resource : ResourceId}
    (hresource : resource ∈ container.resourceIds) :
    ∃ (place : Nat) (entry : FileEntry), container.resourceIds[place]? = some resource ∧
      (∀ other : Nat, container.resourceIds[other]? = some resource → other ≤ place) ∧
      (survey disk config root)[place]? = some entry ∧ container.entry? resource = some entry := by
  have hids := resourceIds_of_openAt hopened
  rw [hids] at hresource
  obtain ⟨place, lump, hanswer, hlump, hleads, hlast⟩ :=
    IdMap.exists_lumpOf?_zip (container.length_answers registry id) List.pairwise_lt_range hresource
  rw [← lookup_of_openAt hopened] at hleads
  obtain ⟨hplace, hsame⟩ := List.getElem?_eq_some_iff.1 hlump
  rw [List.getElem_range] at hsame
  subst hsame
  rw [List.length_range] at hplace
  have hentry : container.entries[place]? = some container.entries[place] :=
    Array.getElem?_eq_getElem hplace
  refine ⟨place, container.entries[place], hids ▸ hanswer, hids ▸ hlast, ?_, ?_⟩
  · rw [← entries_of_openAt hopened, Array.getElem?_toList]
    exact hentry
  · rw [TreeContainer.entry?, hleads]
    exact hentry

end TreeContainer

/-! ## Whatever happens -/

namespace Session

/-- One thing that happens in a session. -/
inductive Happens (session : Session) : Session → Prop where
  /-- A container is asked something. -/
  | asks (index : Nat) (call : Call) : Happens session (session.call index call)
  /-- A file is written, so that it is new, or longer, or shorter, or just different. -/
  | writes {path : FilePath} {content : Content} {later : Session}
    (hwrite : session.write path content = .ok later) : Happens session later
  /-- A file is removed. -/
  | removes {path : FilePath} {later : Session} (hremove : session.remove path = .ok later) :
    Happens session later
  /-- Something else is opened. -/
  | opens (openWith : AliasingCatalog → ContainerId → Opened AliasingCatalog) :
    Happens session (session.enter openWith).2
  /-- The disk changes in any other way. -/
  | changes (disk : Disk) : Happens session { session with disk }

/-- A session that another one comes to. -/
inductive Later (first : Session) : Session → Prop where
  | now : Later first first
  | after {session later : Session} (h : Later first session) (hstep : Happens session later) :
    Later first later

/-- What a write comes to: the path leads to a file with the content, and the containers are told. -/
theorem write_eq_ok {session later : Session} {path : FilePath} {content : Content}
    (h : session.write path content = .ok later) :
    ∃ file, later.disk.openFile path = .ok (file, content) ∧
      later.containers = session.containers.map (·.written file content) := by
  unfold write at h
  cases hparents : session.disk.makeParents path with
  | error error =>
    rw [hparents] at h
    cases h
  | ok made =>
    rw [hparents] at h
    change (made.writeFile path content >>= fun _ => _) = _ at h
    cases hwrite : made.writeFile path content with
    | error error =>
      rw [hwrite] at h
      cases h
    | ok written =>
      rw [hwrite] at h
      cases h
      exact ⟨written.1, Disk.openFile_of_writeFile hwrite, rfl⟩

/-- Removing a file leaves the containers alone. -/
theorem containers_remove {session later : Session} {path : FilePath}
    (h : session.remove path = .ok later) : later.containers = session.containers := by
  unfold remove at h
  cases hremove : session.disk.remove path with
  | error error =>
    rw [hremove] at h
    cases h
  | ok disk =>
    rw [hremove] at h
    cases h
    rfl

/-- **One step.**  A tree stays as it is, whatever happens. -/
theorem Happens.tree_stays {session later : Session} (h : Happens session later) {index : Nat}
    {files : TreeContainer} (hfiles : session.containers[index]? = some (.tree files)) :
    later.containers[index]? = some (.tree files) := by
  cases h with
  | asks other call =>
    by_cases hsame : other = index
    · subst hsame
      rw [Session.call_self hfiles]
      cases call <;> rfl
    · rw [Session.call_other hsame, hfiles]
  | @writes path content later hwrite =>
    obtain ⟨file, -, hcontainers⟩ := write_eq_ok hwrite
    rw [hcontainers, Array.getElem?_map, hfiles]
    rfl
  | removes hremove =>
    rw [containers_remove hremove]
    exact hfiles
  | opens openWith =>
    show (session.containers.push _)[index]? = _
    have hbound := (Array.getElem?_eq_some_iff.1 hfiles).1
    rw [Array.getElem?_push_lt hbound, ← hfiles, Array.getElem?_eq_getElem hbound]
  | changes disk => exact hfiles

/-- **Any history.**  So it does all the time. -/
theorem Later.tree_stays {first later : Session} (h : Later first later) {index : Nat}
    {files : TreeContainer} (hfiles : first.containers[index]? = some (.tree files)) :
    later.containers[index]? = some (.tree files) := by
  induction h with
  | now => exact hfiles
  | after _ hstep ih => exact hstep.tree_stays ih

end Session

/-! ## All together -/

namespace Container

/-- That buffers are filled from a resource with the front of what a file holds, as long as there is
room and no more than `limit` bytes.  Behind that a buffer keeps its bytes. -/
def FillsFrom (disk : Disk) (container : Container) (resource : ResourceId) (limit : Nat)
    (content : Content) : Prop :=
  ∀ buffer : Bytes,
    let count := min buffer.length (min limit content.size)
    container.fill disk resource buffer = (count, buffer.overwrite (content.bytes.take count))

/-- A tree does so from a file that can be opened. -/
theorem fillsFrom_tree {disk : Disk} {files : TreeContainer} {resource : ResourceId}
    {entry : FileEntry} (hentry : files.entry? resource = some entry) {file : NodeId}
    {content : Content} (hopen : disk.openFile entry.path = .ok (file, content)) :
    (tree files).FillsFrom disk resource (min entry.length sizeLimit) content := by
  intro buffer count
  have hload : ((tree files).load disk resource buffer.length).1 = content.bytes.take count := by
    show files.load disk resource buffer.length = _
    rw [TreeContainer.load_eq_take hentry hopen, List.take_eq_take_iff, Content.length_bytes]
    omega
  have hlength : (content.bytes.take count).length = count := by
    rw [List.length_take, Content.length_bytes]
    omega
  rw [fill]
  simp only [hload, hlength]

/-- **A tree reads its files as they are.**  Open a directory tree, and let happen what may.  The tree
is still there as it was opened.  Each resource of it leads to a file that was found, the last one it
was the answer for, and has the length that the file had then, as far as sizes go.  A load gives the
front of what the file's path leads to by now, but no more than that length, and nothing if that is no
file any more, or one that may not be opened.  If the file was written just before, it is what was
written. -/
theorem reads_present_files {session later : Session} (hsound : session.disk.IsSound)
    {kind : Option ContainerKind} {path : FilePath}
    (hkind : kind.getD (.detect session.disk path) = .tree)
    (hlater : (session.openAt kind path).2.Later later) :
    ∃ files, (session.openAt kind path).1.container = tree files ∧
      later.containers[session.containers.size]? = some (tree files) ∧
      ∀ resource ∈ files.resourceIds, ∃ place entry file found allowed,
        files.resourceIds[place]? = some resource ∧
        (∀ other : Nat, files.resourceIds[other]? = some resource → other ≤ place) ∧
        (TreeContainer.survey session.disk session.context.config path)[place]? = some entry ∧
        session.disk.fileAt entry.path = .ok (file, found, allowed) ∧
        let limit := min found.size sizeLimit
        (tree files).sizeOf resource = limit ∧
        (∀ now content, later.disk.openFile entry.path = .ok (now, content) →
          (tree files).FillsFrom later.disk resource limit content) ∧
        (∀ error, later.disk.openFile entry.path = .error error →
          ∀ buffer, (tree files).fill later.disk resource buffer = (0, buffer)) ∧
        (∀ content written, later.write entry.path content = .ok written →
          (tree files).FillsFrom written.disk resource limit content) := by
  let catalog := session.registry.catalog.allocateContainerId
  let registry : AliasingCatalog := { session.registry with catalog := catalog.2 }
  generalize hopened : TreeContainer.openAt session.disk session.context.config registry path
    catalog.1 = opened
  obtain ⟨files, after⟩ := opened
  have hrun : openAs .tree session.disk session.context registry path catalog.1 =
      { container := tree files, registry := after } := by
    rw [openAs, hopened]
  have hopen : session.openAt kind path =
      ({ container := tree files, registry := after },
        { session with registry := after, containers := session.containers.push (tree files) }) := by
    unfold Session.openAt Session.enter
    rw [hkind]
    simp only
    rw [hrun]
  rw [hopen] at hlater ⊢
  refine ⟨files, rfl, hlater.tree_stays Array.getElem?_push_size, ?_⟩
  intro resource hresource
  obtain ⟨place, entry, hplace, hlast, hsurvey, hentry⟩ :=
    TreeContainer.exists_entry_of_mem hopened hresource
  obtain ⟨file, found, allowed, hfound, hlength⟩ :=
    Opening.exists_fileAt_of_mem_survey hsound (List.mem_of_getElem? hsurvey)
  refine ⟨place, entry, file, found, allowed, hplace, hlast, hsurvey, hfound, ?_⟩
  rw [hlength]
  refine ⟨TreeContainer.sizeOf_eq_min hentry, ?_, ?_, ?_⟩
  · intro now content hnow
    exact fillsFrom_tree hentry hnow
  · intro error hgone buffer
    have hnothing : ((tree files).load later.disk resource buffer.length).1 = [] :=
      TreeContainer.load_eq_nil hentry hgone _
    rw [fill, hnothing]
    rfl
  · intro content written hwrite
    obtain ⟨now, hnow, -⟩ := Session.write_eq_ok hwrite
    exact fillsFrom_tree hentry hnow

/-- The tree of a disk with one note of three bytes. -/
def noteSession : Session := (Session.start noteDisk {} #[]).openAt none (.ofText "/") |>.2

/-- The session after the note was written again, with more bytes. -/
def grownSession : Session :=
  match noteSession.write (.ofText "/note.txt") (.ofBytes [9, 8, 7, 6, 5]) with
  | .ok later => later
  | .error _ => noteSession

/-- The session after the note was removed as well. -/
def emptiedSession : Session :=
  match grownSession.remove (.ofText "/note.txt") with
  | .ok later => later
  | .error _ => grownSession

theorem reads_present_files_note :
    ∃ files, grownSession.containers[0]? = some (tree files) ∧
      emptiedSession.containers[0]? = some (tree files) ∧
      (tree files).sizeOf ⟨0⟩ = 3 ∧
      (tree files).fill grownSession.disk ⟨0⟩ [0, 0, 0, 0] = (3, [9, 8, 7, 0]) ∧
      (tree files).fill emptiedSession.disk ⟨0⟩ [0, 0, 0, 0] = (0, [0, 0, 0, 0]) := by
  have hkind : (none : Option ContainerKind).getD
      (.detect (Session.start noteDisk {} #[]).disk (.ofText "/")) = .tree := by decide +kernel
  have hgrown : noteSession.Later grownSession := by
    unfold grownSession
    split
    next later hwrite => exact .after .now (.writes hwrite)
    next => exact .now
  have hemptied : noteSession.Later emptiedSession := by
    unfold emptiedSession
    split
    next later hremove => exact .after hgrown (.removes hremove)
    next => exact hgrown
  have hsurvey : TreeContainer.survey noteDisk {} (.ofText "/") =
      [⟨.ofText "/note.txt", ⟨["NOTE"]⟩, 3⟩] := by decide +kernel
  have hids : ((Session.start noteDisk {} #[]).openAt none (.ofText "/")).1.container.resourceIds =
      [⟨0⟩] := by decide +kernel
  -- what the path of the note leads to at first, in between, and in the end
  have hfirst : (noteDisk.fileAt (.ofText "/note.txt")).toOption =
      some (1, .ofBytes [1, 2, 3], true) := by decide +kernel
  have hnow : (grownSession.disk.openFile (.ofText "/note.txt")).toOption =
      some (1, .ofBytes [9, 8, 7, 6, 5]) := by decide +kernel
  have hgone : (emptiedSession.disk.openFile (.ofText "/note.txt")).toOption = none := by
    decide +kernel
  obtain ⟨files, hfiles, hstays, hreads⟩ :=
    reads_present_files isBuilt_noteDisk.isSound hkind hgrown
  obtain ⟨same, hsame, hstaysToo, hreadsToo⟩ :=
    reads_present_files isBuilt_noteDisk.isSound hkind hemptied
  cases (Container.tree.inj (hfiles.symm.trans hsame))
  have hresource : ⟨0⟩ ∈ files.resourceIds := by
    rw [hfiles] at hids
    show ⟨0⟩ ∈ (tree files).resourceIds
    rw [hids]
    exact List.mem_singleton.2 rfl
  have hnote : ∀ (place : Nat) (entry : FileEntry),
      (TreeContainer.survey noteDisk {} (.ofText "/"))[place]? = some entry →
        entry.path = .ofText "/note.txt" := by
    intro place entry hentry
    have hmem := List.mem_of_getElem? hentry
    rw [hsurvey] at hmem
    rw [List.mem_singleton.1 hmem]
  obtain ⟨place, entry, file, found, allowed, -, -, hentry, hfound, hsize, hfills, -⟩ :=
    hreads ⟨0⟩ hresource
  obtain ⟨_, entry', _, _, _, -, -, hentry', -, -, -, hnothing, -⟩ := hreadsToo ⟨0⟩ hresource
  rw [hnote place entry hentry] at hfound hfills
  rw [hnote _ entry' hentry'] at hnothing
  refine ⟨files, hstays, hstaysToo, ?_⟩
  have hfound' : noteDisk.fileAt (.ofText "/note.txt") = .ok (file, found, allowed) := hfound
  rw [hfound'] at hfirst
  cases hfirst
  refine ⟨hsize, ?_, ?_⟩
  · cases hopen : grownSession.disk.openFile (.ofText "/note.txt") with
    | error error => rw [hopen] at hnow; cases hnow
    | ok shown =>
      rw [hopen] at hnow
      cases hnow
      exact hfills _ _ hopen [0, 0, 0, 0]
  · cases hopen : emptiedSession.disk.openFile (.ofText "/note.txt") with
    | error error => exact hnothing error hopen [0, 0, 0, 0]
    | ok shown => rw [hopen] at hgone; cases hgone

end Container

end WadCatalog
