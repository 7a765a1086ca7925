import WadCatalog.Proofs.Command.Extraction
import WadCatalog.Proofs.Container.TreeReads
import WadCatalog.Proofs.ResourcePath.Files

/-
  Extracting files.

  The lumps of an archive have any names, and not all of them can be extracted by the address that is
  listed.  Files have names that a disk allows, and that makes the difference.

  1. **Names on a disk** (`Disk.isFileName_of_mem_walk`).  Whatever a walk goes through has the name
     of an entry, and no path that leads to a file has a zero byte.  So the addresses of files have
     clean segments.
  2. **What is opened** (`Container.ServesFiles`).  Opened into a fresh catalog, a single file or a
     tree leads every entry of the catalog back to a file, and gives its front if the file may be
     opened.  The two kinds of container are opened in different ways, and only this is used of them.
     A single file that may not be opened is not registered (`allowed_of_mem_filesAs`), while a tree
     registers its files without opening them.
  3. **What is found** (`Catalog.lookup?_eq_lastPrinted?`).  An address of clean segments is read back
     from its text, and addresses of clean segments with the same text are the same.  So the very
     first search finds the last resource that is printed so (`extract_listed_files`).

  What is listed need not be readable.  Nothing comes of a file of a tree that may not be opened, and a
  name with a line break takes more than one line of a listing (`listed_files_not_extracted`).
-/

namespace WadCatalog

/-! ## Names on a disk -/

namespace Disk

/-- A path that leads to a file has no zero byte. -/
theorem zero_not_mem_of_fileAt {disk : Disk} {path : FilePath} {file : NodeId} {content : Content}
    {allowed : Bool} (hfile : disk.fileAt path = .ok (file, content, allowed)) :
    0 ∉ path.bytes := by
  intro hzero
  have hpath : pathError? path ≠ none := by
    rw [pathError?, if_neg (List.ne_nil_of_mem hzero), if_pos hzero]
    exact Option.some_ne_none _
  obtain ⟨above, hlocate, -⟩ := fileAt_eq_ok_iff.1 hfile
  exact hpath (locate_eq_ok_iff.1 hlocate).1

end Disk

/-- The bytes of the names on the way are bytes of the path. -/
theorem FilePath.mem_bytes_descend {names : List Bytes} {name : Bytes} (hname : name ∈ names)
    {byte : UInt8} (hbyte : byte ∈ name) (path : FilePath) :
    byte ∈ (path.descend names).bytes := by
  induction names generalizing path with
  | nil => cases hname
  | cons first rest ih =>
    rcases List.mem_cons.1 hname with rfl | hrest
    · have hchild : byte ∈ (path.child name).bytes := by
        unfold child
        split
        · exact List.mem_append_right _ hbyte
        · exact List.mem_append_right _ (List.mem_cons_of_mem _ hbyte)
      exact ((path.child name).isPrefix_descend rest).subset hchild
    · exact ih hrest (path.child first)

/-- **Names on a disk.**  What a walk of a sound disk finds is reached through names that files can
have. -/
theorem Disk.isFileName_of_mem_walk {disk : Disk} (h : disk.IsSound) {follow : Bool} {depth : Nat}
    {path : FilePath} {found : Found} (hfound : found ∈ disk.walk follow depth path) :
    ∀ name ∈ found.names, FilePath.IsFileName name := by
  intro name hname
  obtain ⟨file, content, allowed, hfile, -⟩ := exists_fileAt_of_mem_walk h hfound
  have hentry : IsEntryName name := by
    unfold walk at hfound
    split at hfound
    next => exact isEntryName_of_mem_walkFrom h hfound name hname
    next => cases hfound
  exact ⟨hentry.toIsPiece, fun hzero =>
    zero_not_mem_of_fileAt hfile (FilePath.mem_bytes_descend hname hzero path)⟩

/-! ## Addresses of files -/

open ResourcePath

/-- The addresses of the files of a tree have clean segments. -/
theorem TreeContainer.isClean_of_mem_survey {disk : Disk} (h : disk.IsSound) {config : Config}
    {root : FilePath} {entry : FileEntry} (hentry : entry ∈ survey disk config root) :
    ∀ segment ∈ entry.resourcePath.segments, IsClean segment := by
  obtain ⟨found, hfound, hkept⟩ := List.mem_filterMap.1 hentry
  obtain ⟨path, hpath, rfl⟩ := Option.map_eq_some_iff.1 hkept
  refine isClean_of_ofFile? ?_ hpath
  intro text htext
  obtain ⟨name, hname, rfl⟩ := List.mem_map.1 htext
  exact (Disk.isFileName_of_mem_walk h hfound name hname).isFileSegment

namespace LooseFile

variable {disk : Disk} {path : FilePath}

/-- A file that has a name can be opened. -/
theorem exists_openFile_of_nameOf {name : LumpName}
    (hname : (nameOf path (.openFile disk path)).1 = some name) :
    ∃ file content, disk.openFile path = .ok (file, content) := by
  cases hopen : disk.openFile path with
  | ok found => exact ⟨found.1, found.2, rfl⟩
  | error error =>
    have hinvalid : ByteSource.isValid (Stream.openFile disk path) = false := by
      rw [Stream.openFile, hopen]
      rfl
    rw [nameOf, hinvalid] at hname
    cases hname

/-- So can a file that is registered. -/
theorem exists_openFile_of_mem_addresses {address : ResourcePath}
    (h : address ∈ addresses disk path) : ∃ file content, disk.openFile path = .ok (file, content) := by
  obtain ⟨name, hname, -⟩ := List.mem_map.1 h
  exact exists_openFile_of_nameOf (Option.mem_toList.1 hname)

/-- The address of a single file has clean segments. -/
theorem isClean_of_mem_addresses {address : ResourcePath} (h : address ∈ addresses disk path) :
    ∀ segment ∈ address.segments, IsClean segment := by
  obtain ⟨file, content, hopen⟩ := exists_openFile_of_mem_addresses h
  obtain ⟨name, hmem, rfl⟩ := List.mem_map.1 h
  have hname := Option.mem_toList.1 hmem
  have hclean : IsClean name.text := by
    unfold nameOf at hname
    split at hname
    · simp only at hname
      split at hname
      · cases hname
        decide
      · have hzero := Disk.zero_not_mem_of_fileAt (Disk.fileAt_of_openFile hopen)
        exact LumpName.isClean_text_of_ofPath? hzero hname
    · cases hname
  have hglobal : ∀ segment ∈ Namespace.global.path.segments, IsClean segment := by decide
  exact isClean_join hglobal hclean

end LooseFile

/-! ## What is opened -/

namespace Container

/-- The files that are registered when what is at a path is opened as a container of some kind, in
that order, each with its address.  The lumps of an archive are no files. -/
def filesAs (kind : ContainerKind) (disk : Disk) (config : Config) (path : FilePath) :
    List (FilePath × ResourcePath) :=
  match kind with
  | .looseFile => (LooseFile.addresses disk path).map (path, ·)
  | .tree => (TreeContainer.survey disk config path).map fun entry =>
      (entry.path, entry.resourcePath)
  | .wad | .mapWad => []

/-- That a catalog knows of some files and nothing else, and a container serves them.  Each of them
has an address of clean segments.  The resource of its number gives its front if the file may be
opened, and nothing if not. -/
structure ServesFiles (disk : Disk) (files : List (FilePath × ResourcePath))
    (container : Container) (catalog : Catalog) : Prop where
  consistent : catalog.IsConsistent
  listed : catalog.entries.toList.map (·.path) = files.map (·.2)
  clean : ∀ file ∈ files, ∀ segment ∈ file.2.segments, IsClean segment
  given : ∀ (place : Nat) (source : FilePath) (address : ResourcePath),
    files[place]? = some (source, address) → ∃ file content allowed,
      disk.fileAt source = .ok (file, content, allowed) ∧
        (container.loadAll disk ⟨place⟩).1 = if allowed then content.bytes.take sizeLimit else []

end Container

/-- A catalog before anything was opened into it. -/
def Catalog.fresh : Catalog := Catalog.empty.allocateContainerId.2

namespace Opening.Announces

variable {id : ContainerId} {paths : List ResourcePath} {opened : Opened Catalog}
  (h : Announces Catalog.fresh id paths opened)
include h

theorem isConsistent : opened.registry.IsConsistent := by
  rw [h.registry_eq]
  exact Catalog.isConsistent_addAll Catalog.isConsistent_empty.allocateContainerId id paths

/-- A fresh catalog comes to know of what is announced, and of nothing else. -/
theorem paths_eq : opened.registry.entries.toList.map (·.path) = paths := by
  rw [h.registry_eq, Catalog.entries_addAll]
  exact Catalog.paths_entriesFrom id 0 paths

/-- The resources have their places for numbers. -/
theorem getElem?_resourceIds {place : Nat} {path : ResourcePath}
    (hpath : paths[place]? = some path) :
    opened.container.resourceIds[place]? = some ⟨place⟩ := by
  rw [h.resourceIds_eq, Catalog.getElem?_answers, hpath]
  exact congrArg (fun number => some (ResourceId.mk number)) (Nat.zero_add place)

end Opening.Announces

namespace Container

/-- A single file that is registered may be opened. -/
theorem allowed_of_mem_filesAs {disk : Disk} {config : Config} {path source : FilePath}
    {address : ResourcePath} (hmem : (source, address) ∈ filesAs .looseFile disk config path)
    {file : NodeId} {content : Content} {allowed : Bool}
    (hfile : disk.fileAt source = .ok (file, content, allowed)) : allowed = true := by
  obtain ⟨same, haddress, heq⟩ := List.mem_map.1 hmem
  cases heq
  obtain ⟨_, _, hopen⟩ := LooseFile.exists_openFile_of_mem_addresses haddress
  cases (Disk.fileAt_of_openFile hopen).symm.trans hfile
  rfl

/-- A file of a tree is loaded if it may be opened. -/
theorem loadAll_tree {files : TreeContainer} {disk : Disk} {resource : ResourceId}
    {entry : FileEntry} (hentry : files.entry? resource = some entry) {file : NodeId}
    {content : Content} {allowed : Bool}
    (hfile : disk.fileAt entry.path = .ok (file, content, allowed))
    (hlength : content.size = entry.length) :
    ((tree files).loadAll disk resource).1 =
      if allowed then content.bytes.take sizeLimit else [] := by
  have hopen := Disk.openFile_of_fileAt hfile
  cases allowed with
  | true => exact (gives_tree hentry hopen hlength).loadAll_fill.1
  | false => exact TreeContainer.load_eq_nil hentry hopen _

/-- A single file serves itself, if it can be opened. -/
theorem servesFiles_looseFile (disk : Disk) (context : OpenContext) (path : FilePath)
    (id : ContainerId) :
    let opened := openAs .looseFile disk context Catalog.fresh path id
    opened.container.ServesFiles disk (filesAs .looseFile disk context.config path)
      opened.registry := by
  intro opened
  have hannounces := Opening.announces_looseFile disk Catalog.fresh path id context
  have haddresses : (filesAs .looseFile disk context.config path).map (·.2) =
      LooseFile.addresses disk path := by
    rw [filesAs, List.map_map]
    exact List.map_id _
  refine ⟨hannounces.isConsistent, hannounces.paths_eq.trans haddresses.symm, ?_, ?_⟩
  · intro file hfile
    exact LooseFile.isClean_of_mem_addresses (haddresses ▸ List.mem_map_of_mem hfile)
  · intro place source address hplace
    rw [filesAs, List.getElem?_map] at hplace
    obtain ⟨same, haddress, heq⟩ := Option.map_eq_some_iff.1 hplace
    cases heq
    obtain ⟨file, content, hopen⟩ :=
      LooseFile.exists_openFile_of_mem_addresses (List.mem_of_getElem? haddress)
    let loose := (LooseFile.openAt disk Catalog.fresh path id).1
    have hown : loose.resource = some ⟨place⟩ :=
      Option.mem_toList.1 (List.mem_of_getElem? (hannounces.getElem?_resourceIds haddress))
    have hholds : ByteSource.Holds content.bytes loose.stream := by
      rw [LooseFile.stream_openAt]
      exact (LooseFile.leads_nameOf path _).holds (Stream.isSteady_openFile hopen).holds
    exact ⟨file, content, true, Disk.fileAt_of_openFile hopen,
      (gives_looseFile hholds disk hown).loadAll_fill.1⟩

/-- A tree on a sound disk serves the files that were found. -/
theorem servesFiles_tree {disk : Disk} (h : disk.IsSound) (context : OpenContext)
    (path : FilePath) (id : ContainerId) :
    let opened := openAs .tree disk context Catalog.fresh path id
    opened.container.ServesFiles disk (filesAs .tree disk context.config path)
      opened.registry := by
  intro opened
  have hannounces := Opening.announces_tree disk Catalog.fresh path id context
  have haddresses : (filesAs .tree disk context.config path).map (·.2) =
      TreeContainer.addresses disk context.config path := by
    rw [filesAs, List.map_map]
    rfl
  refine ⟨hannounces.isConsistent, hannounces.paths_eq.trans haddresses.symm, ?_, ?_⟩
  · intro file hfile
    obtain ⟨entry, hentry, rfl⟩ := List.mem_map.1 hfile
    exact TreeContainer.isClean_of_mem_survey h hentry
  · intro place source address hplace
    rw [filesAs, List.getElem?_map] at hplace
    obtain ⟨entry, hentry, heq⟩ := Option.map_eq_some_iff.1 hplace
    cases heq
    obtain ⟨file, content, allowed, hfile, hlength⟩ :=
      Opening.exists_fileAt_of_mem_survey h (List.mem_of_getElem? hentry)
    let files := (TreeContainer.openAt disk context.config Catalog.fresh path id).1
    have hopened : TreeContainer.openAt disk context.config Catalog.fresh path id = (files, _) :=
      rfl
    have hdistinct : files.resourceIds.Nodup := by
      rw [TreeContainer.resourceIds_of_openAt hopened]
      exact Catalog.nodup_answers _ _ _
    have haddress : (TreeContainer.addresses disk context.config path)[place]? =
        some entry.resourcePath := by
      rw [TreeContainer.addresses, List.getElem?_map, hentry]
      rfl
    have hresource : files.resourceIds[place]? = some ⟨place⟩ :=
      hannounces.getElem?_resourceIds haddress
    obtain ⟨found, hfound, -, hleads⟩ :=
      TreeContainer.resolves_of_openAt hopened hdistinct hresource
    rw [← Array.getElem?_toList, TreeContainer.entries_of_openAt hopened, hentry] at hfound
    cases hfound
    exact ⟨file, content, allowed, hfile, loadAll_tree hleads hfile hlength⟩

end Container

/-! ## What is found -/

namespace Container.ServesFiles

variable {disk : Disk} {files : List (FilePath × ResourcePath)} {container : Container}
  {catalog : Catalog} (h : container.ServesFiles disk files catalog) {entry : CatalogEntry}
  (hentry : entry ∈ catalog.entries.toList)
include h hentry

/-- An entry is the file of its number. -/
theorem exists_file_of_mem : ∃ source file content allowed,
    files[entry.id.number]? = some (source, entry.path) ∧
      disk.fileAt source = .ok (file, content, allowed) ∧
        (container.loadAll disk entry.id).1 =
          if allowed then content.bytes.take sizeLimit else [] := by
  obtain ⟨place, hplace⟩ := List.mem_iff_getElem?.1 hentry
  have hid := h.consistent.ids place entry hplace
  have hlisted : (files.map (·.2))[place]? = some entry.path := by
    rw [← h.listed, List.getElem?_map, hplace]
    rfl
  rw [List.getElem?_map] at hlisted
  obtain ⟨⟨source, address⟩, hserved, rfl⟩ := Option.map_eq_some_iff.1 hlisted
  obtain ⟨file, content, allowed, hfile, hload⟩ := h.given place source entry.path hserved
  rw [hid]
  exact ⟨source, file, content, allowed, hserved, hfile, hload⟩

/-- So its address has clean segments. -/
theorem isClean_of_mem : ∀ segment ∈ entry.path.segments, IsClean segment := by
  obtain ⟨source, file, content, allowed, hplace, -, -⟩ := h.exists_file_of_mem hentry
  exact h.clean _ (List.mem_of_getElem? hplace)

end Container.ServesFiles

/-- An address of clean segments stands for the last resource that is printed so. -/
theorem Catalog.lookup?_eq_lastPrinted? {catalog : Catalog} (hconsistent : catalog.IsConsistent)
    (hclean : ∀ entry ∈ catalog.entries.toList, ∀ segment ∈ entry.path.segments, IsClean segment)
    {path : ResourcePath} (hpath : ∀ segment ∈ path.segments, IsClean segment) :
    catalog.lookup? path = (catalog.lastPrinted? path.text).map (·.id) := by
  have hsame : ∀ entry ∈ catalog.entries.toList,
      decide (entry.path = path) = decide (entry.path.text = path.text) := by
    intro entry hentry
    rw [decide_eq_decide]
    constructor
    · exact congrArg text
    · intro htext
      rw [← parse_text (hclean entry hentry), htext, parse_text hpath]
  rw [hconsistent.lookup?_eq, List.filter_congr hsame]
  rfl

/-- Archives of one map are never detected. -/
theorem ContainerKind.detect_ne_mapWad (disk : Disk) (path : FilePath) :
    detect disk path ≠ .mapWad := by
  unfold detect
  split
  · nofun
  · split
    · split <;> nofun
    · nofun

namespace Command

variable {disk : Disk} {path : FilePath}

/-- Whatever is no archive serves files when it is opened. -/
theorem servesFiles_openFresh (h : disk.IsSound) (hkind : ContainerKind.detect disk path ≠ .wad)
    (config : Config) :
    (openFresh disk config path).1.ServesFiles disk
      (Container.filesAs (.detect disk path) disk config path) (openFresh disk config path).2 := by
  have hopened : openFresh disk config path =
      let opened := Container.openAs (.detect disk path) disk { config } Catalog.fresh path ⟨0⟩
      (opened.container, opened.registry) := rfl
  rw [hopened]
  cases hdetect : ContainerKind.detect disk path with
  | tree => exact Container.servesFiles_tree h { config } path ⟨0⟩
  | looseFile => exact Container.servesFiles_looseFile disk { config } path ⟨0⟩
  | wad => exact absurd hdetect hkind
  | mapWad => exact absurd hdetect (ContainerKind.detect_ne_mapWad disk path)

/-- **Extracting files.**  What is no archive, a single file or a tree, is registered file by file, at
addresses of clean segments.  So the text of each row that is listed is read back as the very address
that it was printed for, and extracting it gives the front of a file, if the file may be opened, and
nothing if not.  It is the last file that is printed so.  A single file that is listed may always be
opened. -/
theorem extract_listed_files (h : disk.IsSound) (hkind : ContainerKind.detect disk path ≠ .wad)
    (config : Config) (checksums : Bool) :
    let files := Container.filesAs (.detect disk path) disk config path
    let catalog := (openFresh disk config path).2
    catalog.entries.toList.map (·.path) = files.map (·.2) ∧
    (∀ entry ∈ catalog.entries.toList, ∀ segment ∈ entry.path.segments, IsClean segment) ∧
    ∀ row ∈ list disk config path checksums, ∃ last source file content allowed,
      let wanted := ResourcePath.parse row.path
      catalog.lastPrinted? row.path = some last ∧ last.path = wanted ∧
      catalog.lookup? wanted = some last.id ∧
      files[last.id.number]? = some (source, wanted) ∧
      disk.fileAt source = .ok (file, content, allowed) ∧
      (ContainerKind.detect disk path ≠ .tree → allowed = true) ∧
      extract disk config path row.path =
        .ok (if allowed then content.bytes.take sizeLimit else []) := by
  intro files catalog
  have hserves := servesFiles_openFresh h hkind config
  have hclean : ∀ entry ∈ catalog.entries.toList, ∀ segment ∈ entry.path.segments,
      IsClean segment := fun entry hentry => hserves.isClean_of_mem hentry
  refine ⟨hserves.listed, hclean, ?_⟩
  intro row hrow
  obtain ⟨entry, hentry, hpath⟩ := exists_entry_of_mem_list hrow
  have hparse : ResourcePath.parse row.path = entry.path := by
    rw [hpath]
    exact parse_text (hclean entry hentry)
  obtain ⟨last, hlast⟩ := Catalog.exists_lastPrinted? hentry
  obtain ⟨hmem, htext⟩ := Catalog.mem_of_lastPrinted? hlast
  have hsame : last.path = entry.path := by
    rw [← parse_text (hclean last hmem), htext, parse_text (hclean entry hentry)]
  have hfound : catalog.lookup? entry.path = some last.id := by
    rw [Catalog.lookup?_eq_lastPrinted? hserves.consistent hclean (hclean entry hentry)]
    exact congrArg (Option.map (·.id)) hlast
  obtain ⟨source, file, content, allowed, hplace, hfile, hload⟩ := hserves.exists_file_of_mem hmem
  refine ⟨last, source, file, content, allowed, hpath ▸ hlast, hsame.trans hparse.symm,
    hparse ▸ hfound, hparse ▸ hsame ▸ hplace, hfile, ?_, ?_⟩
  · intro htree
    have hloose : ContainerKind.detect disk path = .looseFile := by
      cases hdetect : ContainerKind.detect disk path with
      | looseFile => rfl
      | tree => exact absurd hdetect htree
      | wad => exact absurd hdetect hkind
      | mapWad => exact absurd hdetect (ContainerKind.detect_ne_mapWad disk path)
    rw [hloose] at hplace
    exact Container.allowed_of_mem_filesAs (List.mem_of_getElem? hplace) hfile
  · unfold extract
    simp only
    rw [hparse, hfound, ← hload]
    rfl

/-- A disk with two files whose names differ in case and extension only. -/
def boomDisk : Disk :=
  match Disk.empty.writeFile (.ofText "/BOOM.WAV") (.ofBytes [1, 2]) with
  | .ok (_, disk) =>
    match disk.writeFile (.ofText "/boom.ogg") (.ofBytes [3]) with
    | .ok (_, disk) => disk
    | .error _ => disk
  | .error _ => .empty

theorem isBuilt_boomDisk : boomDisk.IsBuilt := by
  unfold boomDisk
  split
  next first disk hfirst =>
    split
    next second more hsecond => exact .writes (.writes .start hfirst) hsecond
    next => exact .writes .start hfirst
  next => exact .start

theorem extract_listed_files_boom :
    let root : FilePath := .ofText "/"
    ContainerKind.detect boomDisk root ≠ .wad ∧
      list boomDisk {} root false = [⟨0, 2, "/BOOM", none⟩, ⟨1, 1, "/BOOM", none⟩] ∧
      extract boomDisk {} root "/BOOM" = .ok [3] := by
  intro root
  have hkind : ContainerKind.detect boomDisk root ≠ .wad := by decide +kernel
  have hlisted : list boomDisk {} root false =
      [⟨0, 2, "/BOOM", none⟩, ⟨1, 1, "/BOOM", none⟩] := by decide +kernel
  have hfiles : Container.filesAs (.detect boomDisk root) boomDisk {} root =
      [(.ofText "/BOOM.WAV", ⟨["BOOM"]⟩), (.ofText "/boom.ogg", ⟨["BOOM"]⟩)] := by decide +kernel
  have hnumber : ((openFresh boomDisk {} root).2.lastPrinted? "/BOOM").map (·.id.number) =
      some 1 := by decide +kernel
  have hsecond : ((boomDisk.fileAt (.ofText "/boom.ogg")).toOption.map (·.2)) =
      some (.ofBytes [3], true) := by decide +kernel
  obtain ⟨-, -, hrows⟩ := extract_listed_files isBuilt_boomDisk.isSound hkind {} false
  rw [hlisted, hfiles] at hrows
  obtain ⟨last, source, file, content, allowed, hlast, -, -, hplace, hfile, -, hextract⟩ :=
    hrows ⟨0, 2, "/BOOM", none⟩ List.mem_cons_self
  -- the row of the first file is printed like that of the second, which is extracted
  rw [hlast] at hnumber
  have hone : last.id.number = 1 := Option.some.inj hnumber
  rw [hone] at hplace
  cases hplace
  rw [hfile] at hsecond
  cases Option.some.inj hsecond
  exact ⟨hkind, hlisted, hextract⟩

/-- A disk with a file that has a line break in its name, and a file that may not be opened. -/
def guardedDisk : Disk :=
  match Disk.empty.writeFile (.ofText "/A\nB") (.ofBytes [7]) with
  | .ok (_, disk) =>
    match disk.writeFile (.ofText "/secret.txt") (.ofBytes (Utf8.encode "hello world")) with
    | .ok (_, disk) =>
      match disk.forbid (.ofText "/secret.txt") with
      | .ok disk => disk
      | .error _ => disk
    | .error _ => disk
  | .error _ => .empty

theorem isBuilt_guardedDisk : guardedDisk.IsBuilt := by
  unfold guardedDisk
  split
  next first disk hfirst =>
    split
    next second more hsecond =>
      split
      next guarded hforbid => exact .forbids (.writes (.writes .start hfirst) hsecond) hforbid
      next => exact .writes (.writes .start hfirst) hsecond
    next => exact .writes .start hfirst
  next => exact .start

/-- Not every file that is listed is extracted.  Nothing comes of one that may not be opened, although
its length is listed.  And where a name has a line break, the line of the listing that starts the row
ends with another text than the address, and nothing is found by that. -/
theorem listed_files_not_extracted :
    let root : FilePath := .ofText "/"
    let rows : List Row := [⟨0, 1, "/A\nB", none⟩, ⟨1, 11, "/SECRET", none⟩]
    guardedDisk.IsSound ∧ ContainerKind.detect guardedDisk root = .tree ∧
      list guardedDisk {} root false = rows ∧
      (guardedDisk.fileAt (.ofText "/secret.txt")).toOption =
        some (2, .ofBytes (Utf8.encode "hello world"), false) ∧
      extract guardedDisk {} root "/SECRET" = .ok [] ∧
      table rows = "    0         1 /A\nB\n    1        11 /SECRET\n" ∧
      extract guardedDisk {} root "/A" = .error (.invalidPath ⟨["A"]⟩) := by
  intro root rows
  refine ⟨isBuilt_guardedDisk.isSound, ?_, ?_, ?_, ?_, ?_, ?_⟩
  all_goals decide +kernel

end Command

end WadCatalog
