import WadCatalog.Container
import WadCatalog.Proofs.Catalog.Entries
import WadCatalog.Proofs.Container.Registration

/-
  Who serves a resource.

  Containers of all kinds announce what they find to one catalog, and each keeps to itself which
  resources are its own.  That the two agree is shown in three steps.

  1. **One opening** (`Opening.announces`).  Whatever is opened, and whatever the registry, there are
     addresses that are announced one after another; the container lists the answers in that order
     and is silent about every other resource.  The kinds of container are told apart here only.
  2. **One step** (`IsOwned.allocate`, `IsOwned.opens`).  Between openings, the entries of each
     container are what it lists, and every entry has its container.  An opening adds entries under
     an id that no container had, so nothing changes for the others.
  3. **Any history** (`isOwned_of_reachable`), by induction on the steps.

  Ids of resources and containers have no upper bound here, so no number of them is too large.
-/

namespace WadCatalog

/-! ## One opening -/

namespace Container

/-- That a container gives nothing of a resource. -/
structure IsSilent (container : Container) (resource : ResourceId) : Prop where
  sizeOf : container.sizeOf resource = 0
  load : ∀ (disk : Disk) (room : Nat), (container.load disk resource room).1 = []

theorem IsSilent.loadAll {container : Container} {resource : ResourceId}
    (h : container.IsSilent resource) (disk : Disk) :
    (container.loadAll disk resource).1 = [] :=
  h.load disk _

/-- An archive is silent about resources that lead to no lump. -/
theorem isSilent_wad {archive : WadContainer AnySource} {resource : ResourceId}
    (h : archive.lookup.lumpOf? resource = none) : (wad archive).IsSilent resource := by
  constructor
  · show archive.sizeOf resource = 0
    rw [WadContainer.sizeOf, h]
  · intro disk room
    show (archive.load resource room).1 = []
    rw [WadContainer.load, h]

/-- So is an archive of one map. -/
theorem isSilent_mapWad {map : MapWadContainer AnySource} {resource : ResourceId}
    (h : map.wad.lookup.lumpOf? resource = none) : (mapWad map).IsSilent resource := by
  obtain ⟨hsize, hload⟩ := isSilent_wad h
  exact ⟨hsize, hload⟩

/-- So is a directory tree about resources that lead to no file. -/
theorem isSilent_tree {files : TreeContainer} {resource : ResourceId}
    (h : files.lookup.lumpOf? resource = none) : (tree files).IsSilent resource := by
  have hentry : files.entry? resource = none := by
    rw [TreeContainer.entry?, h]
    rfl
  constructor
  · show files.sizeOf resource = 0
    rw [TreeContainer.sizeOf, hentry]
  · intro disk room
    show files.load disk resource room = []
    rw [TreeContainer.load, hentry]

/-- A single file is silent about resources that are not its own. -/
theorem isSilent_looseFile {file : LooseFile} {resource : ResourceId}
    (h : file.resource ≠ some resource) : (looseFile file).IsSilent resource := by
  have hsize : file.sizeOf resource = 0 := if_neg h
  constructor
  · exact hsize
  · intro disk room
    show (file.load resource room).1 = []
    rw [LooseFile.load, hsize, Nat.min_zero]
    rfl

end Container

/-- The addresses that a single file announces: its own, if it has a name. -/
def LooseFile.addresses (disk : Disk) (path : FilePath) : List ResourcePath :=
  (nameOf path (.openFile disk path)).1.toList.map Namespace.global.path.joinLump

/-- The addresses that a directory tree announces: those of its files. -/
def TreeContainer.addresses (disk : Disk) (config : Config) (root : FilePath) :
    List ResourcePath :=
  (survey disk config root).map (·.resourcePath)

/-- Opening a tree asks the registry for the addresses of the files, one after another, and records
each answer with the place of its file. -/
theorem TreeContainer.openAt_eq_addAll {ρ : Type} [Registry ρ] (disk : Disk) (config : Config)
    (registry : ρ) (root : FilePath) (id : ContainerId) :
    (openAt disk config registry root id).1.lookup =
        IdMap.empty.insertAll ((Registry.addAll id registry (addresses disk config root)).1.zip
          (List.range (survey disk config root).length)) ∧
      (openAt disk config registry root id).2 =
        (Registry.addAll id registry (addresses disk config root)).2 := by
  let entries := survey disk config root
  let announced := entries.zipIdx.map fun found => (found.2, found.1.resourcePath)
  have hpaths : announced.map (·.2) = addresses disk config root := by
    rw [List.map_map]
    show entries.zipIdx.map (FileEntry.resourcePath ∘ Prod.fst) = _
    rw [← List.map_map, List.zipIdx_map_fst]
    rfl
  have hlumps : announced.map (·.1) = List.range entries.length := by
    rw [List.map_map]
    show entries.zipIdx.map Prod.snd = _
    rw [List.zipIdx_map_snd, ← List.range_eq_range']
  have hannounce := IdMap.announce_eq id .empty registry announced
  rw [hpaths, hlumps] at hannounce
  exact ⟨congrArg Prod.fst hannounce, congrArg Prod.snd hannounce⟩

/-- An opening of a container. -/
inductive Opening where
  /-- What is at a path is opened as the kind that fits. -/
  | detected (disk : Disk) (context : OpenContext) (path : FilePath)
  /-- What is at a path is opened as a container of a given kind. -/
  | explicit (kind : ContainerKind) (disk : Disk) (context : OpenContext) (path : FilePath)
  /-- An archive is opened over a source. -/
  | wadSource (context : OpenContext) (source : AnySource)
  /-- An archive of one map is opened over a source. -/
  | mapSource (source : AnySource) (mapName : Option LumpName)

namespace Opening

variable {ρ : Type} [Registry ρ]

/-- Opens a container under an id. -/
def run (registry : ρ) (id : ContainerId) : Opening → Opened ρ
  | detected disk context path => Container.openAt disk context registry path id
  | explicit kind disk context path => Container.openAs kind disk context registry path id
  | wadSource context source => Container.openWadSource context registry source id
  | mapSource source mapName => { container := Container.openMapSource source id mapName, registry }

/-- What becomes of resources announced at some addresses: the container lists the answers, in
order, and knows of no other resource. -/
structure Announces (registry : ρ) (id : ContainerId) (paths : List ResourcePath)
    (opened : Opened ρ) : Prop where
  id_eq : opened.container.id = id
  registry_eq : opened.registry = (Registry.addAll id registry paths).2
  resourceIds_eq : opened.container.resourceIds = (Registry.addAll id registry paths).1
  isSilent : ∀ resource, resource ∉ (Registry.addAll id registry paths).1 →
    opened.container.IsSilent resource

/-- An archive that was read announces the addresses of its lumps. -/
theorem announces_openWad (context : OpenContext) (registry : ρ) (wad : WadContainer AnySource)
    (hempty : wad.lookup = .empty) :
    Announces registry wad.id (wad.addresses context)
      (Container.openWad context registry wad) := by
  obtain ⟨hlookup, hregistry⟩ := WadContainer.register_eq_addAll context registry wad hempty
  have hlength := wad.length_answers context registry
  have hascending := wad.directory.pairwise_idsWithin (ByteSource.size wad.source)
  refine ⟨rfl, hregistry, ?_, ?_⟩
  · exact (congrArg IdMap.resourceIds hlookup).trans (IdMap.resourceIds_zip hlength hascending)
  · intro resource hresource
    apply Container.isSilent_wad
    exact (congrArg (·.lumpOf? resource) hlookup).trans (IdMap.lumpOf?_zip_of_not_mem hresource)

/-- An archive of one map announces nothing. -/
theorem announces_openMapSource (registry : ρ) (source : AnySource) (id : ContainerId)
    (mapName : Option LumpName) :
    Announces registry id [] { container := Container.openMapSource source id mapName, registry } :=
  ⟨rfl, rfl, rfl, fun _ _ => Container.isSilent_mapWad rfl⟩

/-- A single file announces itself, or nothing. -/
theorem announces_looseFile (disk : Disk) (registry : ρ) (path : FilePath) (id : ContainerId)
    (context : OpenContext) :
    Announces registry id (LooseFile.addresses disk path)
      (Container.openAs .looseFile disk context registry path id) := by
  unfold LooseFile.addresses Container.openAs LooseFile.openAt
  cases hname : (LooseFile.nameOf path (.openFile disk path)).1 with
  | none =>
    simp only [hname]
    exact ⟨rfl, rfl, rfl, fun _ _ => Container.isSilent_looseFile nofun⟩
  | some name =>
    simp only [hname]
    refine ⟨rfl, rfl, rfl, ?_⟩
    intro resource hresource
    apply Container.isSilent_looseFile
    intro heq
    exact hresource (List.mem_singleton.2 (Option.some.inj heq).symm)

/-- A directory tree announces its files. -/
theorem announces_tree (disk : Disk) (registry : ρ) (path : FilePath) (id : ContainerId)
    (context : OpenContext) :
    Announces registry id (TreeContainer.addresses disk context.config path)
      (Container.openAs .tree disk context registry path id) := by
  obtain ⟨hlookup, hregistry⟩ :=
    TreeContainer.openAt_eq_addAll disk context.config registry path id
  have hlength :
      (Registry.addAll id registry (TreeContainer.addresses disk context.config path)).1.length =
        (List.range (TreeContainer.survey disk context.config path).length).length := by
    rw [Registry.length_addAll, TreeContainer.addresses, List.length_map, List.length_range]
  refine ⟨rfl, hregistry, ?_, ?_⟩
  · exact (congrArg IdMap.resourceIds hlookup).trans
      (IdMap.resourceIds_zip hlength List.pairwise_lt_range)
  · intro resource hresource
    apply Container.isSilent_tree
    exact (congrArg (·.lumpOf? resource) hlookup).trans (IdMap.lumpOf?_zip_of_not_mem hresource)

/-- What is opened as a container of some kind announces resources at some addresses. -/
theorem announces_openAs (kind : ContainerKind) (disk : Disk) (context : OpenContext)
    (registry : ρ) (path : FilePath) (id : ContainerId) :
    ∃ paths, Announces registry id paths (Container.openAs kind disk context registry path id) := by
  cases kind with
  | looseFile => exact ⟨_, announces_looseFile disk registry path id context⟩
  | wad =>
    let wad := WadContainer.ofSource (AnySource.stream (.openFile disk path)) id
    exact ⟨_, announces_openWad context registry { wad with path := some path } rfl⟩
  | mapWad => exact ⟨[], announces_openMapSource registry _ id _⟩
  | tree => exact ⟨_, announces_tree disk registry path id context⟩

/-- **One opening.**  Every opening announces resources at some addresses. -/
theorem announces (opening : Opening) (registry : ρ) (id : ContainerId) :
    ∃ paths, Announces registry id paths (opening.run registry id) := by
  cases opening with
  | detected disk context path => exact announces_openAs _ disk context registry path id
  | explicit kind disk context path => exact announces_openAs kind disk context registry path id
  | wadSource context source =>
    exact ⟨_, announces_openWad context registry (.ofSource source id) rfl⟩
  | mapSource source mapName => exact ⟨[], announces_openMapSource registry source id mapName⟩

end Opening

/-! ## One step -/

/-- A catalog, the container ids that it gave out and nobody has used yet, and the containers that
were opened into it, in order. -/
structure Collection where
  /-- What the containers announced. -/
  catalog : Catalog
  /-- The ids to open containers under. -/
  spare : List ContainerId
  /-- The containers. -/
  containers : List Container

namespace Collection

/-- Before anything was opened. -/
def start : Collection := ⟨.empty, [], []⟩

/-- Takes a fresh container id from the catalog. -/
def allocate (collection : Collection) : Collection :=
  let (id, catalog) := collection.catalog.allocateContainerId
  { collection with catalog, spare := id :: collection.spare }

/-- Opens a container under a spare id. -/
def opens (collection : Collection) (id : ContainerId) (opening : Opening) : Collection :=
  let opened := opening.run collection.catalog id
  { catalog := opened.registry
    spare := collection.spare.erase id
    containers := collection.containers ++ [opened.container] }

/-- The collections that come of allocating ids and opening containers, in any order. -/
inductive Reachable : Collection → Prop where
  | start : Reachable start
  | allocate {collection : Collection} (h : Reachable collection) : Reachable collection.allocate
  | opens {collection : Collection} (h : Reachable collection) {id : ContainerId}
      (hid : id ∈ collection.spare) (opening : Opening) : Reachable (collection.opens id opening)

/-- That every entry of the catalog is the business of one container. -/
structure IsOwned (collection : Collection) : Prop where
  /-- The id of a resource is its place in the catalog. -/
  consistent : collection.catalog.IsConsistent
  /-- No container id is used twice. -/
  nodup : (collection.containers.map (·.id) ++ collection.spare).Nodup
  /-- All container ids came from the catalog. -/
  allocated : ∀ id ∈ collection.containers.map (·.id) ++ collection.spare,
    id.number < collection.catalog.nextContainer
  /-- Every entry has its container. -/
  owner : ∀ entry ∈ collection.catalog.entries.toList,
    entry.container ∈ collection.containers.map (·.id)
  /-- The entries of a container are what it lists. -/
  listed : ∀ container ∈ collection.containers,
    (collection.catalog.resourcesOf container.id).map (·.id) = container.resourceIds
  /-- About every other resource it is silent. -/
  isSilent : ∀ container ∈ collection.containers, ∀ resource, resource ∉ container.resourceIds →
    container.IsSilent resource

theorem isOwned_start : start.IsOwned where
  consistent := Catalog.isConsistent_empty
  nodup := List.nodup_nil
  allocated _ h := nomatch h
  owner _ h := nomatch h
  listed _ h := nomatch h
  isSilent _ h := nomatch h

/-- A fresh id is one that no container has. -/
theorem IsOwned.allocate {collection : Collection} (h : collection.IsOwned) :
    collection.allocate.IsOwned where
  consistent := h.consistent.allocateContainerId
  nodup := by
    have hfresh : (⟨collection.catalog.nextContainer⟩ : ContainerId) ∉
        collection.containers.map (·.id) ++ collection.spare :=
      fun hmem => Nat.lt_irrefl _ (h.allocated _ hmem)
    exact List.nodup_middle.2 (List.nodup_cons.2 ⟨hfresh, h.nodup⟩)
  allocated id hid := by
    show id.number < collection.catalog.nextContainer + 1
    rcases List.mem_append.1 hid with hused | hspare
    · have hbefore := h.allocated id (List.mem_append_left _ hused)
      omega
    · rcases List.mem_cons.1 hspare with rfl | hspare
      · exact Nat.lt_succ_self _
      · have hbefore := h.allocated id (List.mem_append_right _ hspare)
        omega
  owner := h.owner
  listed := h.listed
  isSilent := h.isSilent

/-- A spare id is not that of a container. -/
theorem IsOwned.not_mem_of_spare {collection : Collection} {id : ContainerId}
    (h : collection.IsOwned) (hid : id ∈ collection.spare) :
    id ∉ collection.containers.map (·.id) := by
  obtain ⟨-, -, hdisjoint⟩ := List.nodup_append'.1 h.nodup
  exact fun hmem => hdisjoint hmem hid

section Opens

variable {collection : Collection} {id : ContainerId} {opening : Opening}
  {paths : List ResourcePath}
  (hopened : Opening.Announces collection.catalog id paths (opening.run collection.catalog id))
include hopened

/-- The entries of an opening come to stand behind those there were. -/
theorem entries_opens :
    (collection.opens id opening).catalog.entries.toList =
      collection.catalog.entries.toList ++
        Catalog.entriesFrom id collection.catalog.length paths := by
  rw [← Catalog.entries_addAll, ← hopened.registry_eq]
  rfl

/-- The new container has the spare id. -/
theorem ids_opens :
    (collection.opens id opening).containers.map (·.id) =
      collection.containers.map (·.id) ++ [id] :=
  List.map_append.trans (congrArg (collection.containers.map (·.id) ++ [·]) hopened.id_eq)

/-- No container id comes or goes; one of them changes sides. -/
theorem ids_opens_perm (hid : id ∈ collection.spare) :
    ((collection.opens id opening).containers.map (·.id) ++
        (collection.opens id opening).spare).Perm
      (collection.containers.map (·.id) ++ collection.spare) := by
  have hmoves := (List.perm_cons_erase hid).symm.append_left (collection.containers.map (·.id))
  rw [ids_opens hopened, List.append_assoc]
  exact hmoves

/-- The entries of the other containers stay as they are. -/
theorem IsOwned.resourcesOf_opens_of_mem (h : collection.IsOwned) (hid : id ∈ collection.spare)
    {container : Container} (hmem : container ∈ collection.containers) :
    (collection.opens id opening).catalog.resourcesOf container.id =
      collection.catalog.resourcesOf container.id := by
  have hne : id ≠ container.id :=
    fun heq => h.not_mem_of_spare hid (heq ▸ List.mem_map_of_mem hmem)
  rw [Catalog.resourcesOf, entries_opens hopened, List.filter_append,
    Catalog.filter_entriesFrom_of_ne hne, List.append_nil]
  rfl

/-- The entries of the new container are what it announced. -/
theorem IsOwned.resourcesOf_opens_self (h : collection.IsOwned) (hid : id ∈ collection.spare) :
    (collection.opens id opening).catalog.resourcesOf id =
      Catalog.entriesFrom id collection.catalog.length paths := by
  -- before, no entry had this container, since every entry has one that is there
  have hnone : collection.catalog.entries.toList.filter (·.container = id) = [] := by
    rw [List.filter_eq_nil_iff]
    intro entry hentry howner
    exact h.not_mem_of_spare hid (of_decide_eq_true howner ▸ h.owner entry hentry)
  rw [Catalog.resourcesOf, entries_opens hopened, List.filter_append, hnone, List.nil_append,
    Catalog.filter_entriesFrom_self]

end Opens

/-- An opening adds the entries of the new container and leaves the others theirs. -/
theorem IsOwned.opens {collection : Collection} {id : ContainerId} (h : collection.IsOwned)
    (hid : id ∈ collection.spare) (opening : Opening) : (collection.opens id opening).IsOwned := by
  obtain ⟨paths, hopened⟩ := opening.announces collection.catalog id
  have hpool := ids_opens_perm hopened hid
  refine ⟨?_, ?_, ?_, ?_, ?_, ?_⟩
  · have hconsistent := Catalog.isConsistent_addAll h.consistent id paths
    rw [← hopened.registry_eq] at hconsistent
    exact hconsistent
  · exact hpool.nodup_iff.2 h.nodup
  · intro other hmem
    have hnext : (collection.opens id opening).catalog.nextContainer =
        collection.catalog.nextContainer := by
      rw [← Catalog.nextContainer_addAll id collection.catalog paths, ← hopened.registry_eq]
      rfl
    rw [hnext]
    exact h.allocated other (hpool.mem_iff.1 hmem)
  · intro entry hmem
    rw [entries_opens hopened] at hmem
    rw [ids_opens hopened]
    rcases List.mem_append.1 hmem with hbefore | hadded
    · exact List.mem_append_left _ (h.owner entry hbefore)
    · rw [Catalog.container_of_mem_entriesFrom hadded]
      exact List.mem_append_right _ List.mem_cons_self
  · intro container hmem
    rcases List.mem_append.1 hmem with hbefore | hadded
    · rw [h.resourcesOf_opens_of_mem hopened hid hbefore]
      exact h.listed container hbefore
    · cases List.mem_singleton.1 hadded
      rw [hopened.id_eq, h.resourcesOf_opens_self hopened hid, hopened.resourceIds_eq,
        Catalog.answers_addAll]
  · intro container hmem resource hresource
    rcases List.mem_append.1 hmem with hbefore | hadded
    · exact h.isSilent container hbefore resource hresource
    · cases List.mem_singleton.1 hadded
      exact hopened.isSilent resource (hopened.resourceIds_eq ▸ hresource)

/-! ## Any history -/

/-- However ids were allocated and containers opened, every entry is the business of one
container. -/
theorem isOwned_of_reachable {collection : Collection} (h : collection.Reachable) :
    collection.IsOwned := by
  induction h with
  | start => exact isOwned_start
  | allocate _ ih => exact ih.allocate
  | opens _ hid opening ih => exact ih.opens hid opening

/-- The container of an entry lists it, and no other container does. -/
theorem IsOwned.mem_resourceIds_iff {collection : Collection} (h : collection.IsOwned)
    {entry : CatalogEntry} (hentry : entry ∈ collection.catalog.entries.toList)
    {container : Container} (hcontainer : container ∈ collection.containers) :
    entry.id ∈ container.resourceIds ↔ container.id = entry.container := by
  rw [← h.listed container hcontainer, List.mem_map]
  constructor
  · rintro ⟨other, hother, hid⟩
    obtain ⟨hmem, howner⟩ := List.mem_filter.1 hother
    -- entries of one id are one entry
    have hsame := List.inj_on_of_nodup_map h.consistent.nodup_ids hmem hentry hid
    exact hsame ▸ (of_decide_eq_true howner).symm
  · intro howner
    exact ⟨entry, List.mem_filter.2 ⟨hentry, decide_eq_true howner.symm⟩, rfl⟩

/-- What a container lists is in the catalog. -/
theorem IsOwned.exists_entry {collection : Collection} (h : collection.IsOwned)
    {container : Container} (hcontainer : container ∈ collection.containers)
    {resource : ResourceId} (hresource : resource ∈ container.resourceIds) :
    ∃ entry ∈ collection.catalog.entries.toList,
      entry.id = resource ∧ entry.container = container.id := by
  rw [← h.listed container hcontainer] at hresource
  obtain ⟨entry, hentry, hid⟩ := List.mem_map.1 hresource
  obtain ⟨hmem, howner⟩ := List.mem_filter.1 hentry
  exact ⟨entry, hmem, hid, of_decide_eq_true howner⟩

/-- **Each resource is served by one container.**  However container ids were allocated and
containers of any kind opened, no two containers have the same id or list the same resource, and what
they list are exactly the resources of the catalog.  The catalog knows the resources of each
container in the order in which the container lists them.  And for each entry there is the container
that it names, which lists it; all others have no bytes of it. -/
theorem served_by_one {collection : Collection} (h : collection.Reachable) :
    (collection.containers.map (·.id)).Nodup ∧
    collection.containers.Pairwise (fun one other => one.resourceIds.Disjoint other.resourceIds) ∧
    (∀ resource : ResourceId, (∃ container ∈ collection.containers,
        resource ∈ container.resourceIds) ↔ resource.number < collection.catalog.length) ∧
    (∀ container ∈ collection.containers,
      (collection.catalog.resourcesOf container.id).map (·.id) = container.resourceIds) ∧
    ∀ entry ∈ collection.catalog.entries.toList,
      (∃ owner ∈ collection.containers, owner.id = entry.container ∧
        entry.id ∈ owner.resourceIds) ∧
      ∀ other ∈ collection.containers, other.id ≠ entry.container →
        other.sizeOf entry.id = 0 ∧
        (∀ (disk : Disk) (room : Nat), (other.load disk entry.id room).1 = []) ∧
        ∀ disk : Disk, (other.loadAll disk entry.id).1 = [] := by
  have howned := isOwned_of_reachable h
  obtain ⟨hcontainers, -, -⟩ := List.nodup_append'.1 howned.nodup
  have howner : ∀ entry ∈ collection.catalog.entries.toList,
      ∃ owner ∈ collection.containers, owner.id = entry.container ∧
        entry.id ∈ owner.resourceIds := by
    intro entry hentry
    obtain ⟨owner, hmem, hid⟩ := List.mem_map.1 (howned.owner entry hentry)
    exact ⟨owner, hmem, hid, (howned.mem_resourceIds_iff hentry hmem).2 hid⟩
  refine ⟨hcontainers, ?_, ?_, howned.listed, ?_⟩
  · rw [List.Nodup, List.pairwise_map] at hcontainers
    refine hcontainers.imp_of_mem ?_
    intro one other hone hother hne resource hlisted hlisted'
    obtain ⟨entry, hentry, rfl, hid⟩ := howned.exists_entry hone hlisted
    exact hne (hid.symm.trans ((howned.mem_resourceIds_iff hentry hother).1 hlisted').symm)
  · intro resource
    constructor
    · rintro ⟨container, hcontainer, hlisted⟩
      obtain ⟨entry, hentry, rfl, -⟩ := howned.exists_entry hcontainer hlisted
      obtain ⟨place, hplace⟩ := List.mem_iff_getElem?.1 hentry
      rw [howned.consistent.ids place entry hplace]
      exact (List.getElem?_eq_some_iff.1 hplace).1
    · intro hbound
      have hplace := List.getElem?_eq_getElem (l := collection.catalog.entries.toList) hbound
      obtain ⟨owner, hmem, -, hlisted⟩ := howner _ (List.mem_of_getElem? hplace)
      rw [howned.consistent.ids _ _ hplace] at hlisted
      exact ⟨owner, hmem, hlisted⟩
  · intro entry hentry
    refine ⟨howner entry hentry, ?_⟩
    intro other hother hne
    have hsilent := howned.isSilent other hother entry.id fun hlisted =>
      hne ((howned.mem_resourceIds_iff hentry hother).1 hlisted)
    exact ⟨hsilent.sizeOf, hsilent.load, hsilent.loadAll⟩

/-- Two ids were allocated; an archive was opened under the second, and then one under the first. -/
def crossed : Collection :=
  let archive := Opening.wadSource {} (.stream (.ofBytes WadContainer.gappedArchive.build))
  (start.allocate.allocate.opens ⟨1⟩ archive).opens ⟨0⟩ archive

theorem served_by_one_crossed :
    ∃ early ∈ crossed.containers, early.id = ⟨1⟩ ∧ early.sizeOf ⟨3⟩ = 0 ∧
      ∃ late ∈ crossed.containers, late.id = ⟨0⟩ ∧ ⟨3⟩ ∈ late.resourceIds := by
  have hreachable : crossed.Reachable :=
    .opens (.opens (.allocate (.allocate .start)) (by decide) _) (by decide) _
  have hentries : crossed.catalog.entries.toList.map (fun entry => (entry.id, entry.container)) =
      [(⟨0⟩, ⟨1⟩), (⟨1⟩, ⟨1⟩), (⟨2⟩, ⟨0⟩), (⟨3⟩, ⟨0⟩)] := by
    decide +kernel
  have hids : crossed.containers.map (·.id) = [⟨1⟩, ⟨0⟩] := by decide +kernel
  have hentry : (⟨3⟩, ⟨0⟩) ∈
      crossed.catalog.entries.toList.map (fun entry => (entry.id, entry.container)) := by
    rw [hentries]
    decide
  have hearly : ⟨1⟩ ∈ crossed.containers.map (·.id) := by
    rw [hids]
    decide
  obtain ⟨entry, hmem, heq⟩ := List.mem_map.1 hentry
  obtain ⟨hid, hcontainer⟩ := Prod.mk.inj heq
  obtain ⟨early, hearly, hone⟩ := List.mem_map.1 hearly
  obtain ⟨-, -, -, -, hserved⟩ := served_by_one hreachable
  obtain ⟨⟨late, hlate, hzero, hlisted⟩, hothers⟩ := hserved entry hmem
  rw [hcontainer] at hzero hothers
  rw [hid] at hlisted hothers
  obtain ⟨hsize, -, -⟩ := hothers early hearly (by rw [hone]; decide)
  exact ⟨early, hearly, hone, hsize, late, hlate, hzero, hlisted⟩

end Collection

end WadCatalog
