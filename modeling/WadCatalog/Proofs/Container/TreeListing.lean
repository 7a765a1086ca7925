import WadCatalog.Proofs.Container.Ownership
import WadCatalog.Proofs.Disk.Listing

/-
  The files of a tree container.

  A tree container takes every file that a walk finds and drops those that no name is left for.  What
  it holds in the end is said here from the disk alone, for a walk that follows no links.

  1. **The files** (`isListing_survey`).  A file belongs to the tree if it lies below the root within
     the levels that are walked, if its path can be looked up, and if there is an address for it
     (`Belongs`).  The entries of the container are these files and no others, each of them once, in
     the order of their names (`IsListing`).  Dropping files changes neither what else is there nor
     the order, so this comes of what a walk lists.
  2. **The resources** (`resolves_of_openAt`).  The registry is asked for one file after another, and
     each answer is recorded with the place of its file among the entries; a dropped file leaves no
     gap.  So if no answer comes twice, the resource at a place leads back to the file at that place.

  The condition on the path is not idle.  A file whose path is too long is skipped, since its length
  cannot be read, and that can happen to a file just below the root.
-/

namespace WadCatalog.TreeContainer

/-! ## The files -/

/-- That the file along some names belongs to a tree, and how it is entered. -/
structure Belongs (disk : Disk) (config : Config) (root : FilePath) (names : List Bytes)
    (entry : FileEntry) : Prop where
  /-- There is a file below the root, and it has this length. -/
  onDisk : ∃ content, disk.IsFileBelow root names content ∧ entry.length = content.size
  /-- It is in the levels that are walked. -/
  inRange : names.length ≤ max 1 config.maxDirectoryDepth
  /-- Its path, from the root as it was given, can be looked up. -/
  inReach : Disk.pathError? (root.descend names) = none
  /-- There is an address for it. -/
  addressed : ResourcePath.ofFile? config (names.map Utf8.decodeLossy) = some entry.resourcePath
  /-- It is found by its path. -/
  located : entry.path = root.descend names

/-- That entries are the files that belong to a tree, in the order of their names. -/
def IsListing (disk : Disk) (config : Config) (root : FilePath) (entries : List FileEntry) : Prop :=
  ∃ listed : List (List Bytes × FileEntry), listed.map (·.2) = entries ∧
    (listed.Pairwise fun one other => one.1 < other.1) ∧
    ∀ names entry, (names, entry) ∈ listed ↔ Belongs disk config root names entry

/-- The entry of a file that a walk has found, with the names that lead to it. -/
def listing? (config : Config) (root : FilePath) (found : Disk.Found) :
    Option (List Bytes × FileEntry) :=
  (ResourcePath.ofFile? config (found.names.map Utf8.decodeLossy)).map fun path =>
    (found.names, ⟨root.descend found.names, path, found.length⟩)

theorem survey_eq_filterMap (disk : Disk) (config : Config) (root : FilePath) :
    survey disk config root =
      ((disk.walk config.followLinks config.maxDirectoryDepth root).filterMap
        (listing? config root)).map (·.2) := by
  rw [List.map_filterMap]
  refine List.filterMap_congr fun found _ => ?_
  rw [listing?, Option.map_map]
  rfl

/-- **The files.**  A tree without links to follow lists the files that belong to it. -/
theorem isListing_survey (disk : Disk) {config : Config} (root : FilePath)
    (hlinks : config.followLinks = false) :
    IsListing disk config root (survey disk config root) := by
  refine ⟨_, (survey_eq_filterMap disk config root).symm, ?_, ?_⟩
  · rw [hlinks]
    refine (disk.pairwise_walk _ root).filterMap _ ?_
    intro found later hlt one hone other hother
    obtain ⟨path, -, rfl⟩ := Option.map_eq_some_iff.1 hone
    obtain ⟨path', -, rfl⟩ := Option.map_eq_some_iff.1 hother
    exact hlt
  · intro names entry
    rw [hlinks, List.mem_filterMap]
    constructor
    · rintro ⟨found, hfound, hlisted⟩
      obtain ⟨path, haddress, heq⟩ := Option.map_eq_some_iff.1 hlisted
      cases heq
      obtain ⟨hrange, hreach, honDisk⟩ := Disk.mem_walk_iff.1 hfound
      exact ⟨honDisk, hrange, hreach, haddress, rfl⟩
    · obtain ⟨path, address, length⟩ := entry
      rintro ⟨honDisk, hrange, hreach, haddress, rfl⟩
      refine ⟨⟨names, length⟩, Disk.mem_walk_iff.2 ⟨hrange, hreach, honDisk⟩, ?_⟩
      exact Option.map_eq_some_iff.2 ⟨address, haddress, rfl⟩

/-- Whatever is entered can be looked up. -/
theorem inReach_of_mem_survey {disk : Disk} {config : Config} {root : FilePath}
    (hlinks : config.followLinks = false) {entry : FileEntry}
    (hentry : entry ∈ survey disk config root) : Disk.pathError? entry.path = none := by
  obtain ⟨listed, heq, -, hbelongs⟩ := isListing_survey disk root hlinks
  rw [← heq] at hentry
  obtain ⟨⟨names, found⟩, hmem, rfl⟩ := List.mem_map.1 hentry
  have hfound := (hbelongs names found).1 hmem
  rw [hfound.located]
  exact hfound.inReach

/-! ## The resources -/

/-- There are as many answers as files. -/
theorem length_answers {ρ : Type} [Registry ρ] (container : TreeContainer) (registry : ρ)
    (id : ContainerId) :
    (Registry.addAll id registry (container.entries.toList.map (·.resourcePath))).1.length =
      (List.range container.entries.size).length := by
  rw [Registry.length_addAll, List.length_map, List.length_range, Array.length_toList]

section Opened

variable {ρ : Type} [Registry ρ] {disk : Disk} {config : Config} {registry after : ρ}
  {root : FilePath} {id : ContainerId} {container : TreeContainer}
  (hopened : openAt disk config registry root id = (container, after))
include hopened

theorem entries_of_openAt : container.entries.toList = survey disk config root := by
  have hfirst : (openAt disk config registry root id).1 = container := by rw [hopened]
  rw [← hfirst]
  rfl

/-- The registry was asked for one file after another. -/
theorem registry_of_openAt :
    after = (Registry.addAll id registry (container.entries.toList.map (·.resourcePath))).2 := by
  have hadded := openAt_eq_addAll disk config registry root id
  rw [hopened] at hadded
  rw [entries_of_openAt hopened]
  exact hadded.2

/-- Its answers were recorded next to the places of the files. -/
theorem lookup_of_openAt :
    container.lookup = IdMap.empty.insertAll
      ((Registry.addAll id registry (container.entries.toList.map (·.resourcePath))).1.zip
        (List.range container.entries.size)) := by
  have hadded := openAt_eq_addAll disk config registry root id
  rw [hopened] at hadded
  rw [← Array.length_toList, entries_of_openAt hopened]
  exact hadded.1

/-- The resources of a tree are the answers, in order. -/
theorem resourceIds_of_openAt :
    container.resourceIds =
      (Registry.addAll id registry (container.entries.toList.map (·.resourcePath))).1 := by
  rw [resourceIds, lookup_of_openAt hopened]
  exact IdMap.resourceIds_zip (container.length_answers registry id) List.pairwise_lt_range

/-- **The resources.**  If no answer comes twice, each resource leads back to the file at its
place. -/
theorem resolves_of_openAt (hdistinct : container.resourceIds.Nodup) {place : Nat}
    {resource : ResourceId} (hresource : container.resourceIds[place]? = some resource) :
    ∃ entry, container.entries[place]? = some entry ∧
      container.lookup.lumpOf? resource = some place ∧ container.entry? resource = some entry := by
  have hids := resourceIds_of_openAt hopened
  have hlength := container.length_answers registry id
  have hplace : place < container.entries.size := by
    obtain ⟨hlt, -⟩ := List.getElem?_eq_some_iff.1 hresource
    rw [hids, hlength, List.length_range] at hlt
    exact hlt
  have hlump : container.lookup.lumpOf? resource = some place := by
    rw [hids] at hdistinct hresource
    rw [lookup_of_openAt hopened, IdMap.lumpOf?_zip_iff hlength List.pairwise_lt_range hdistinct,
      IdMap.resourceOf?_zip hlength List.pairwise_lt_range (List.getElem?_range hplace)]
    exact hresource
  have hentry : container.entries[place]? = some container.entries[place] :=
    Array.getElem?_eq_getElem hplace
  refine ⟨container.entries[place], hentry, hlump, ?_⟩
  rw [TreeContainer.entry?, hlump]
  exact hentry

end Opened

/-- **A tree that was opened** lists the files that belong to it.  The registry was asked for them in
that order, once for each, and the resources it answered with lead back to them. -/
theorem lists_and_resolves {ρ : Type} [Registry ρ] {disk : Disk} {config : Config}
    {registry after : ρ} {root : FilePath} {id : ContainerId} {container : TreeContainer}
    (hlinks : config.followLinks = false)
    (hopened : openAt disk config registry root id = (container, after)) :
    IsListing disk config root container.entries.toList ∧
      (container.resourceIds, after) =
        Registry.addAll id registry (container.entries.toList.map (·.resourcePath)) ∧
      (container.resourceIds.Nodup → ∀ (place : Nat) (resource : ResourceId),
        container.resourceIds[place]? = some resource →
          ∃ entry, container.entries[place]? = some entry ∧
            container.lookup.lumpOf? resource = some place ∧
            container.entry? resource = some entry) := by
  refine ⟨?_, ?_, ?_⟩
  · rw [entries_of_openAt hopened]
    exact isListing_survey disk root hlinks
  · exact Prod.ext (resourceIds_of_openAt hopened) (registry_of_openAt hopened)
  · intro hdistinct place resource hresource
    exact resolves_of_openAt hopened hdistinct hresource

/-- A directory next to a file that has its name and an extension.  There are also a file that no
name is left for, and a link. -/
def mixedDisk : Disk :=
  let name (text : String) : Bytes := Utf8.encode text
  let inside := (∅ : Std.TreeMap Bytes NodeId).insert (name "b") 3
  let top := (∅ : Std.TreeMap Bytes NodeId).insert (name "a.txt") 4 |>.insert (name "a") 2
    |>.insert (name ".hidden") 5 |>.insert (name "link") 6
  ⟨#[.directory ((∅ : Std.TreeMap Bytes NodeId).insert (name "t") 1), .directory top,
    .directory inside, .file (.ofBytes [1]), .file (.ofBytes [2, 3]), .file (.ofBytes [4]),
    .link (.ofText "a.txt")], Disk.root⟩

/-- The tree in the directory `t` of that disk. -/
def mixedTree : TreeContainer := (openAt mixedDisk {} Catalog.empty (.ofText "t") ⟨0⟩).1

theorem lists_and_resolves_mixed :
    IsListing mixedDisk {} (.ofText "t") mixedTree.entries.toList ∧
      mixedTree.entries.toList.map (fun entry => (entry.path.text, entry.resourcePath.text)) =
        [("t/a/b", "/A/B"), ("t/a.txt", "/A")] ∧
      mixedTree.resourceIds = [⟨0⟩, ⟨1⟩] ∧
      ∃ entry, mixedTree.entries[1]? = some entry ∧ mixedTree.entry? ⟨1⟩ = some entry := by
  have hids : mixedTree.resourceIds = [⟨0⟩, ⟨1⟩] := by decide +kernel
  have hlinks : ({} : Config).followLinks = false := rfl
  have hopened : openAt mixedDisk {} Catalog.empty (.ofText "t") ⟨0⟩ = (mixedTree, _) := rfl
  obtain ⟨hlisting, -, hresolves⟩ := lists_and_resolves hlinks hopened
  obtain ⟨entry, hentry, -, hfound⟩ := hresolves (by rw [hids]; decide) 1 ⟨1⟩ (by rw [hids]; rfl)
  exact ⟨hlisting, by decide +kernel, hids, entry, hentry, hfound⟩

/-- A path to the directory `d` with so many steps on the spot that nothing below can be looked
up. -/
def longRoot : FilePath :=
  ⟨(List.replicate 2045 [FilePath.dot, FilePath.separator]).flatten ++ Utf8.encode "d"⟩

/-- A disk with one file in the directory `d`. -/
def longDisk : Disk :=
  ⟨#[.directory ((∅ : Std.TreeMap Bytes NodeId).insert (Utf8.encode "d") 1),
    .directory ((∅ : Std.TreeMap Bytes NodeId).insert (Utf8.encode "PLAYPAL") 2),
    .file (.ofBytes [1, 2, 3])], Disk.root⟩

/-- Not every file that has an address and is not too deep is an entry. -/
theorem not_lists_all_files :
    ¬ ∀ (disk : Disk) (config : Config) (root : FilePath) (id : ContainerId)
      (names : List Bytes) (content : Content) (address : ResourcePath),
      config.followLinks = false → disk.IsFileBelow root names content →
        names.length ≤ max 1 config.maxDirectoryDepth →
          ResourcePath.ofFile? config (names.map Utf8.decodeLossy) = some address →
            ∃ entry ∈ (openAt disk config Catalog.empty root id).1.entries.toList,
              entry.path = root.descend names := by
  intro hall
  have hlocate : longDisk.locate true longRoot = .ok [1, 0] := by decide +kernel
  have hbelow : longDisk.IsFileBelow longRoot [Utf8.encode "PLAYPAL"] (.ofBytes [1, 2, 3]) :=
    ⟨List.cons_ne_nil _ _, 1, [0], true, hlocate, by rfl⟩
  have hlong : Disk.pathError? (longRoot.descend [Utf8.encode "PLAYPAL"]) ≠ none := by
    decide +kernel
  obtain ⟨entry, hentry, hpath⟩ := hall longDisk {} longRoot ⟨0⟩ _ _ ⟨["PLAYPAL"]⟩ rfl hbelow
    (by decide) (by decide)
  generalize hopened : openAt longDisk {} Catalog.empty longRoot ⟨0⟩ = opened at hentry
  obtain ⟨container, after⟩ := opened
  rw [entries_of_openAt hopened] at hentry
  have hreach := inReach_of_mem_survey (rfl : ({} : Config).followLinks = false) hentry
  rw [hpath] at hreach
  exact hlong hreach

end WadCatalog.TreeContainer
