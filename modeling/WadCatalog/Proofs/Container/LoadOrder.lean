import WadCatalog.Proofs.Container.Lifetime
import WadCatalog.Proofs.Container.Ownership

/-
  Load order.

  Containers are opened into one catalog, one after another, and what is loaded later stands before
  what was loaded earlier.  Nobody compares containers for that; it comes of two orders that agree.

  1. **Inside a container** (`Opening.Records`) the lumps or files are announced in ascending order,
     so the resources that the container lists are ascending in their places (`IsAscending`).
  2. **In the catalog** the resources of a container come behind all that were there before.  So the
     entries are, container by container, what the containers list (`Shelf.IsOrdered`).

  The second is an invariant: each move keeps it (`IsOrdered.after`), hence any number of moves does
  (`isOrdered_afterAll`).  A lookup takes the last entry at an address, and the last element of
  lists put one behind another is that of the last list which is not empty
  (`getLast?_flatMap_eq_some_iff`).

  Nothing that was recorded changes, since a move only adds entries at the end
  (`isPrefix_entries_afterAll`).
-/

namespace WadCatalog

/-! ## Places inside a container -/

namespace Container

/-- The place of a resource in its container: which lump or which file serves it. -/
def position? : Container → ResourceId → Option LumpId
  | looseFile file, resource => if file.resource = some resource then some 0 else none
  | wad archive, resource => archive.lookup.lumpOf? resource
  | mapWad map, resource => map.wad.lookup.lumpOf? resource
  | tree files, resource => files.lookup.lumpOf? resource

/-- That a container lists its resources by their places. -/
structure IsAscending (container : Container) : Prop where
  /-- Each of them has a place. -/
  placed : ∀ resource ∈ container.resourceIds, (container.position? resource).isSome
  /-- The places ascend. -/
  ascending : container.resourceIds.Pairwise fun one other => ∀ place place' : LumpId,
    container.position? one = some place → container.position? other = some place' → place < place'

theorem Moved.position?_eq {change : SourceChange} {container later : Container}
    (h : Moved change container later) : later.position? = container.position? := by
  cases h <;> rfl

/-- Whatever happens to a container, its resources stay in order. -/
theorem IsAscending.afterEvent {container : Container} (h : container.IsAscending) (event : Event) :
    (container.afterEvent event).IsAscending := by
  have hmoved := moved_afterEvent container event
  constructor
  · rw [hmoved.resourceIds_eq, hmoved.position?_eq]
    exact h.placed
  · rw [hmoved.resourceIds_eq, hmoved.position?_eq]
    exact h.ascending

end Container

/-- The lumps that an archive announces, each with its address. -/
def WadContainer.offers {σ : Type} [ByteSource σ] (context : OpenContext)
    (container : WadContainer σ) : List (LumpId × ResourcePath) :=
  (container.filings context).1.map fun filing => (filing.lump, filing.path)

namespace Opening

/-- The lumps or files that are announced when what is at a path is opened as a container of some
kind, each with its address. -/
def offersAs (kind : ContainerKind) (disk : Disk) (context : OpenContext) (path : FilePath)
    (id : ContainerId) : List (LumpId × ResourcePath) :=
  match kind with
  | .looseFile => (LooseFile.addresses disk path).map (0, ·)
  | .wad => (WadContainer.ofSource (AnySource.stream (.openFile disk path)) id).offers context
  | .mapWad => []
  | .tree => (List.range (TreeContainer.survey disk context.config path).length).zip
      (TreeContainer.addresses disk context.config path)

/-- The lumps or files that an opening announces, each with its address. -/
def offers (id : ContainerId) : Opening → List (LumpId × ResourcePath)
  | detected disk context path => offersAs (.detect disk path) disk context path id
  | explicit kind disk context path => offersAs kind disk context path id
  | wadSource context source => (WadContainer.ofSource source id).offers context
  | mapSource _ _ => []

variable {ρ : Type} [Registry ρ]

/-- That a container announces lumps or files in ascending order and keeps their places. -/
structure Records (registry : ρ) (id : ContainerId) (offers : List (LumpId × ResourcePath))
    (opened : Opened ρ) : Prop extends Announces registry id (offers.map (·.2)) opened where
  ascending : (offers.map (·.1)).Pairwise (· < ·)
  position?_eq : ∀ resource, opened.container.position? resource =
    (IdMap.empty.insertAll ((Registry.addAll id registry (offers.map (·.2))).1.zip
      (offers.map (·.1)))).lumpOf? resource

/-- An archive records the lumps that it announces. -/
theorem records_openWad (context : OpenContext) (registry : ρ) (wad : WadContainer AnySource)
    (hempty : wad.lookup = .empty) :
    Records registry wad.id (wad.offers context) (Container.openWad context registry wad) := by
  have hlumps : (wad.offers context).map (·.1) =
      wad.directory.idsWithin (ByteSource.size wad.source) := by
    rw [WadContainer.offers, List.map_map]
    exact WadContainer.lumps_filings context wad
  have hpaths : (wad.offers context).map (·.2) = wad.addresses context := by
    rw [WadContainer.offers, List.map_map]
    rfl
  obtain ⟨hlookup, -⟩ := WadContainer.register_eq_addAll context registry wad hempty
  refine ⟨?_, ?_, ?_⟩
  · rw [hpaths]
    exact announces_openWad context registry wad hempty
  · rw [hlumps]
    exact wad.directory.pairwise_idsWithin _
  · intro resource
    rw [hlumps, hpaths]
    exact congrArg (·.lumpOf? resource) hlookup

/-- An archive of one map records nothing. -/
theorem records_openMapSource (registry : ρ) (source : AnySource) (id : ContainerId)
    (mapName : Option LumpName) :
    Records registry id [] { container := Container.openMapSource source id mapName, registry } :=
  ⟨announces_openMapSource registry source id mapName, List.Pairwise.nil, fun _ => rfl⟩

/-- Of a map with one pair, the resource of the pair leads to its lump, and no other does. -/
theorem lumpOf?_insertAll_singleton (found : ResourceId) (lump : LumpId) (resource : ResourceId) :
    (IdMap.empty.insertAll [(found, lump)]).lumpOf? resource =
      if some found = some resource then some lump else none := by
  rw [IdMap.lumpOf?_insertAll]
  by_cases hsame : found = resource
  · simp [hsame]
  · simp [hsame]

/-- A single file records itself, at the first place. -/
theorem records_looseFile (disk : Disk) (registry : ρ) (path : FilePath) (id : ContainerId)
    (context : OpenContext) :
    Records registry id (offersAs .looseFile disk context path id)
      (Container.openAs .looseFile disk context registry path id) := by
  have hpaths : (offersAs .looseFile disk context path id).map (·.2) =
      LooseFile.addresses disk path := by
    rw [offersAs, List.map_map]
    exact List.map_id _
  refine ⟨?_, ?_, ?_⟩
  · rw [hpaths]
    exact announces_looseFile disk registry path id context
  · unfold offersAs LooseFile.addresses
    cases (LooseFile.nameOf path (.openFile disk path)).1 with
    | none => exact List.Pairwise.nil
    | some name => exact List.pairwise_singleton _ _
  · intro resource
    unfold offersAs LooseFile.addresses Container.openAs LooseFile.openAt
    cases hname : (LooseFile.nameOf path (.openFile disk path)).1 with
    | none =>
      simp only [hname]
      rfl
    | some name =>
      simp only [hname]
      exact (lumpOf?_insertAll_singleton _ 0 resource).symm

/-- A directory tree records its files. -/
theorem records_tree (disk : Disk) (registry : ρ) (path : FilePath) (id : ContainerId)
    (context : OpenContext) :
    Records registry id (offersAs .tree disk context path id)
      (Container.openAs .tree disk context registry path id) := by
  have hlength : (List.range (TreeContainer.survey disk context.config path).length).length =
      (TreeContainer.addresses disk context.config path).length := by
    rw [TreeContainer.addresses, List.length_map, List.length_range]
  have hlumps : (offersAs .tree disk context path id).map (·.1) =
      List.range (TreeContainer.survey disk context.config path).length :=
    List.map_fst_zip (Nat.le_of_eq hlength)
  have hpaths : (offersAs .tree disk context path id).map (·.2) =
      TreeContainer.addresses disk context.config path :=
    List.map_snd_zip (Nat.le_of_eq hlength.symm)
  obtain ⟨hlookup, -⟩ :=
    TreeContainer.openAt_eq_addAll disk context.config registry path id
  refine ⟨?_, ?_, ?_⟩
  · rw [hpaths]
    exact announces_tree disk registry path id context
  · rw [hlumps]
    exact List.pairwise_lt_range
  · intro resource
    rw [hlumps, hpaths]
    exact congrArg (·.lumpOf? resource) hlookup

/-- What is opened as a container of some kind records what it announces. -/
theorem records_openAs (kind : ContainerKind) (disk : Disk) (context : OpenContext)
    (registry : ρ) (path : FilePath) (id : ContainerId) :
    Records registry id (offersAs kind disk context path id)
      (Container.openAs kind disk context registry path id) := by
  cases kind with
  | looseFile => exact records_looseFile disk registry path id context
  | wad =>
    let wad := WadContainer.ofSource (AnySource.stream (.openFile disk path)) id
    exact records_openWad context registry { wad with path := some path } rfl
  | mapWad => exact records_openMapSource registry _ id _
  | tree => exact records_tree disk registry path id context

/-- **One opening.**  Every opening records what it announces. -/
theorem records (opening : Opening) (registry : ρ) (id : ContainerId) :
    Records registry id (opening.offers id) (opening.run registry id) := by
  cases opening with
  | detected disk context path => exact records_openAs _ disk context registry path id
  | explicit kind disk context path => exact records_openAs kind disk context registry path id
  | wadSource context source => exact records_openWad context registry (.ofSource source id) rfl
  | mapSource source mapName => exact records_openMapSource registry source id mapName

/-! ## What an opening leaves in a catalog -/

section Recorded

variable {catalog : Catalog} {id : ContainerId} {offers : List (LumpId × ResourcePath)}
  {opened : Opened Catalog} (h : Records catalog id offers opened)
include h

/-- There is one resource for everything that is announced. -/
theorem Records.length_resourceIds : opened.container.resourceIds.length = offers.length := by
  rw [h.resourceIds_eq, Registry.length_addAll, List.length_map]

/-- The resource at a place of the list is kept with what was announced there. -/
theorem Records.position?_of_getElem? {place : Nat} {resource : ResourceId} {lump : LumpId}
    (hresource : opened.container.resourceIds[place]? = some resource)
    (hlump : (offers.map (·.1))[place]? = some lump) :
    opened.container.position? resource = some lump := by
  have hlength : (Registry.addAll id catalog (offers.map (·.2))).1.length =
      (offers.map (·.1)).length := by
    rw [Registry.length_addAll, List.length_map, List.length_map]
  -- a catalog never answers twice with one id, so no later pair stands in the way
  have hnodup : (((Registry.addAll id catalog (offers.map (·.2))).1.zip
      (offers.map (·.1))).map (·.1)).Nodup := by
    rw [List.map_fst_zip (Nat.le_of_eq hlength)]
    exact Catalog.nodup_answers id catalog _
  rw [h.position?_eq, IdMap.lumpOf?_insertAll_iff hnodup]
  exact IdMap.mem_zip_iff.2 ⟨place, h.resourceIds_eq ▸ hresource, hlump⟩

/-- The resource at a place of the list is recorded under the address announced there. -/
theorem Records.get?_of_getElem? {place : Nat} {resource : ResourceId} {path : ResourcePath}
    (hresource : opened.container.resourceIds[place]? = some resource)
    (hpath : (offers.map (·.2))[place]? = some path) :
    opened.registry.get? resource = some ⟨resource, path, id⟩ := by
  rw [h.resourceIds_eq, Catalog.getElem?_answers, hpath] at hresource
  cases hresource
  rw [h.registry_eq]
  exact Catalog.get?_addAll id catalog hpath

/-- The list is ascending. -/
theorem Records.isAscending : opened.container.IsAscending := by
  have hplace : ∀ (index : Nat) (resource : ResourceId),
      opened.container.resourceIds[index]? = some resource →
        ∃ lump, (offers.map (·.1))[index]? = some lump ∧
          opened.container.position? resource = some lump := by
    intro index resource hresource
    have hbound : index < (offers.map (·.1)).length := by
      rw [List.length_map, ← h.length_resourceIds]
      exact (List.getElem?_eq_some_iff.1 hresource).1
    have hlump := List.getElem?_eq_getElem hbound
    exact ⟨_, hlump, h.position?_of_getElem? hresource hlump⟩
  constructor
  · intro resource hmem
    obtain ⟨index, hresource⟩ := List.mem_iff_getElem?.1 hmem
    obtain ⟨lump, -, hfound⟩ := hplace index resource hresource
    rw [hfound]
    rfl
  · rw [List.pairwise_iff_getElem]
    intro first second hfirst hsecond hlt place place' hone hother
    obtain ⟨lump, hlump, hfound⟩ := hplace first _ (List.getElem?_eq_getElem hfirst)
    obtain ⟨lump', hlump', hfound'⟩ := hplace second _ (List.getElem?_eq_getElem hsecond)
    cases hfound.symm.trans hone
    cases hfound'.symm.trans hother
    obtain ⟨hbound, rfl⟩ := List.getElem?_eq_some_iff.1 hlump
    obtain ⟨hbound', rfl⟩ := List.getElem?_eq_some_iff.1 hlump'
    exact List.pairwise_iff_getElem.1 h.ascending first second hbound hbound' hlt

end Recorded

end Opening

/-! ## Any sequence of moves -/

/-- A catalog and the containers that were opened into it, in order. -/
structure Shelf where
  /-- What the containers announced. -/
  catalog : Catalog
  /-- The containers. -/
  containers : List Container

namespace Shelf

/-- What may be done with a catalog and its containers. -/
inductive Move where
  /-- The catalog gives out a container id. -/
  | allocate
  /-- A container is opened under an id, which need not be a fresh one. -/
  | opens (id : ContainerId) (opening : Opening)
  /-- Something happens to the container with the given number. -/
  | happens (number : Nat) (event : Container.Event)

/-- Before anything was opened. -/
def empty : Shelf := ⟨.empty, []⟩

/-- What a move makes of a shelf. -/
def after (shelf : Shelf) : Move → Shelf
  | .allocate => { shelf with catalog := shelf.catalog.allocateContainerId.2 }
  | .opens id opening =>
    let opened := opening.run shelf.catalog id
    ⟨opened.registry, shelf.containers ++ [opened.container]⟩
  | .happens number event =>
    { shelf with containers := shelf.containers.modify number (·.afterEvent event) }

/-- What moves make of a shelf, one after another. -/
def afterAll (shelf : Shelf) (moves : List Move) : Shelf := moves.foldl after shelf

/-- That the entries of the catalog are, container by container, what the containers list. -/
structure IsOrdered (shelf : Shelf) : Prop where
  /-- The id of a resource is its place in the catalog. -/
  consistent : shelf.catalog.IsConsistent
  /-- The entries are what the containers list. -/
  listed : shelf.catalog.entries.toList.map (fun entry => (entry.id, entry.container)) =
    shelf.containers.flatMap fun container => container.resourceIds.map (·, container.id)
  /-- Each container lists its resources by their places. -/
  ascending : ∀ container ∈ shelf.containers, container.IsAscending

theorem isOrdered_empty : empty.IsOrdered where
  consistent := Catalog.isConsistent_empty
  listed := rfl
  ascending _ h := nomatch h

/-- Opening a container puts what it lists behind what there was. -/
theorem IsOrdered.opens {shelf : Shelf} (h : shelf.IsOrdered) (id : ContainerId)
    (opening : Opening) : (shelf.after (.opens id opening)).IsOrdered := by
  have hrecords := opening.records shelf.catalog id
  have hregistry : (shelf.after (.opens id opening)).catalog =
      (Registry.addAll id shelf.catalog ((opening.offers id).map (·.2))).2 := hrecords.registry_eq
  refine ⟨?_, ?_, ?_⟩
  · rw [hregistry]
    exact Catalog.isConsistent_addAll h.consistent id _
  · have hadded : (Catalog.entriesFrom id shelf.catalog.length
        ((opening.offers id).map (·.2))).map (fun entry => (entry.id, entry.container)) =
          (opening.run shelf.catalog id).container.resourceIds.map (·, id) := by
      rw [hrecords.resourceIds_eq, Catalog.answers_addAll, List.map_map]
      apply List.map_congr_left
      intro entry hentry
      rw [Catalog.container_of_mem_entriesFrom hentry]
      rfl
    rw [hregistry, Catalog.entries_addAll, List.map_append, hadded, h.listed]
    show _ = (shelf.containers ++ [(opening.run shelf.catalog id).container]).flatMap _
    rw [List.flatMap_append, List.flatMap_singleton, hrecords.id_eq]
  · intro container hmem
    rcases List.mem_append.1 hmem with hbefore | hadded
    · exact h.ascending container hbefore
    · cases List.mem_singleton.1 hadded
      exact hrecords.isAscending

/-- What is read off the elements of a list does not change with an element that keeps it. -/
theorem map_modify_of_eq {α β : Type} {change : α → α} {look : α → β}
    (h : ∀ element, look (change element) = look element) (elements : List α) (number : Nat) :
    (elements.modify number change).map look = elements.map look := by
  apply List.ext_getElem?
  intro place
  rw [List.getElem?_map, List.getElem?_map, List.getElem?_modify]
  cases elements[place]? with
  | none => rfl
  | some element =>
    show some (look (if number = place then change element else element)) = some (look element)
    split
    · rw [h]
    · rfl

/-- What is in a list with one element changed was there, or comes of what was there. -/
theorem exists_of_mem_modify {α : Type} {change : α → α} {elements : List α} {number : Nat}
    {element : α} (h : element ∈ elements.modify number change) :
    ∃ before ∈ elements, element = before ∨ element = change before := by
  obtain ⟨place, hplace⟩ := List.mem_iff_getElem?.1 h
  rw [List.getElem?_modify] at hplace
  obtain ⟨before, hbefore, rfl⟩ := Option.map_eq_some_iff.1 hplace
  refine ⟨before, List.mem_of_getElem? hbefore, ?_⟩
  split
  · exact .inr rfl
  · exact .inl rfl

/-- What happens to a container changes nothing that it lists. -/
theorem IsOrdered.happens {shelf : Shelf} (h : shelf.IsOrdered) (number : Nat)
    (event : Container.Event) : (shelf.after (.happens number event)).IsOrdered := by
  refine ⟨h.consistent, ?_, ?_⟩
  · let listing (container : Container) := container.resourceIds.map (·, container.id)
    have hsame : ∀ container : Container,
        listing (container.afterEvent event) = listing container := by
      intro container
      have hmoved := Container.moved_afterEvent container event
      simp only [listing, hmoved.resourceIds_eq, hmoved.id_eq]
    have hmap := map_modify_of_eq hsame shelf.containers number
    refine h.listed.trans ?_
    show shelf.containers.flatMap listing =
      (shelf.containers.modify number (·.afterEvent event)).flatMap listing
    rw [List.flatMap_def, List.flatMap_def, hmap]
  · intro container hmem
    obtain ⟨before, hbefore, rfl | rfl⟩ := exists_of_mem_modify hmem
    · exact h.ascending container hbefore
    · exact (h.ascending before hbefore).afterEvent event

/-- **One move.**  Every move keeps the shelf in order. -/
theorem IsOrdered.after {shelf : Shelf} (h : shelf.IsOrdered) (move : Move) :
    (shelf.after move).IsOrdered := by
  cases move with
  | allocate => exact ⟨h.consistent.allocateContainerId, h.listed, h.ascending⟩
  | opens id opening => exact h.opens id opening
  | happens number event => exact h.happens number event

/-- **Any sequence of moves** keeps the shelf in order. -/
theorem isOrdered_afterAll (moves : List Move) {shelf : Shelf} (h : shelf.IsOrdered) :
    (shelf.afterAll moves).IsOrdered := by
  induction moves generalizing shelf with
  | nil => exact h
  | cons move rest ih => exact ih (h.after move)

/-- One move adds entries at the end, if it adds any. -/
theorem isPrefix_entries_after (shelf : Shelf) (move : Move) :
    shelf.catalog.entries.toList <+: (shelf.after move).catalog.entries.toList := by
  cases move with
  | allocate => exact List.prefix_rfl
  | happens number event => exact List.prefix_rfl
  | opens id opening =>
    have hregistry := (opening.records shelf.catalog id).registry_eq
    show _ <+: (opening.run shelf.catalog id).registry.entries.toList
    rw [hregistry, Catalog.entries_addAll]
    exact List.prefix_append _ _

/-- So do any moves. -/
theorem isPrefix_entries_afterAll (moves : List Move) (shelf : Shelf) :
    shelf.catalog.entries.toList <+: (shelf.afterAll moves).catalog.entries.toList := by
  induction moves generalizing shelf with
  | nil => exact List.prefix_rfl
  | cons move rest ih => exact (isPrefix_entries_after shelf move).trans (ih _)

/-- What is recorded stays recorded. -/
theorem get?_afterAll (moves : List Move) {shelf : Shelf} {resource : ResourceId}
    {entry : CatalogEntry} (h : shelf.catalog.get? resource = some entry) :
    (shelf.afterAll moves).catalog.get? resource = some entry := by
  obtain ⟨added, hadded⟩ := isPrefix_entries_afterAll moves shelf
  rw [Catalog.get?, ← Array.getElem?_toList] at h ⊢
  rw [← hadded, List.getElem?_append_left (List.getElem?_eq_some_iff.1 h).1]
  exact h

/-! ## Looking up -/

/-- The resources that a container registered at an address, in the order in which it lists them. -/
def registeredAt (shelf : Shelf) (path : ResourcePath) (container : Container) : List ResourceId :=
  container.resourceIds.filter fun resource =>
    (shelf.catalog.get? resource).any (·.path = path)

section Ordered

variable {shelf : Shelf} (h : shelf.IsOrdered)
include h

/-- What a container lists is recorded as the container's. -/
theorem IsOrdered.get?_of_mem {container : Container} (hcontainer : container ∈ shelf.containers)
    {resource : ResourceId} (hresource : resource ∈ container.resourceIds) :
    ∃ path, shelf.catalog.get? resource = some ⟨resource, path, container.id⟩ := by
  have hpair : (resource, container.id) ∈
      shelf.catalog.entries.toList.map (fun entry => (entry.id, entry.container)) := by
    rw [h.listed, List.mem_flatMap]
    exact ⟨container, hcontainer, List.mem_map_of_mem hresource⟩
  obtain ⟨⟨id, path, owner⟩, hmem, heq⟩ := List.mem_map.1 hpair
  cases heq
  exact ⟨path, h.consistent.get?_of_mem hmem⟩

/-- All resources at an address are, container by container, those registered there. -/
theorem IsOrdered.lookupAll_eq (path : ResourcePath) :
    shelf.catalog.lookupAll path = shelf.containers.flatMap (shelf.registeredAt path) := by
  let atPath (resource : ResourceId) := (shelf.catalog.get? resource).any (·.path = path)
  have hids : shelf.catalog.entries.toList.map (·.id) =
      shelf.containers.flatMap (·.resourceIds) := by
    have hfirst := congrArg (List.map Prod.fst) h.listed
    rw [List.map_map, List.map_flatMap] at hfirst
    simp only [List.map_map] at hfirst
    refine hfirst.trans ?_
    congr 1
    funext container
    exact List.map_id _
  calc
    shelf.catalog.lookupAll path
    _ = (shelf.catalog.entries.toList.filter (·.path = path)).map (·.id) :=
        h.consistent.lookupAll_eq path
    _ = (shelf.catalog.entries.toList.filter fun entry => atPath entry.id).map (·.id) := by
        congr 1
        apply List.filter_congr
        intro entry hmem
        simp only [atPath, h.consistent.get?_of_mem hmem]
        rfl
    _ = (shelf.catalog.entries.toList.map (·.id)).filter atPath := by
        rw [List.filter_map]
        rfl
    _ = shelf.containers.flatMap (shelf.registeredAt path) := by
        rw [hids, List.filter_flatMap]
        rfl

end Ordered

/-- The last element of lists put one behind another is that of the last list that has any. -/
theorem getLast?_flatMap_eq_some_iff {α β : Type} {lists : α → List β} {elements : List α}
    {last : β} :
    (elements.flatMap lists).getLast? = some last ↔
      ∃ front element back, elements = front ++ element :: back ∧
        (∀ later ∈ back, lists later = []) ∧ (lists element).getLast? = some last := by
  rw [List.getLast?_flatMap, List.findSome?_eq_some_iff]
  constructor
  · rintro ⟨back, element, front, hreverse, hlast, hnone⟩
    refine ⟨front.reverse, element, back.reverse, ?_, ?_, hlast⟩
    · rw [← List.reverse_reverse elements, hreverse]
      simp
    · intro later hlater
      exact List.getLast?_eq_none_iff.1 (hnone later (List.mem_reverse.1 hlater))
  · rintro ⟨front, element, back, rfl, hnone, hlast⟩
    refine ⟨back.reverse, element, front.reverse, by simp, hlast, ?_⟩
    intro later hlater
    exact List.getLast?_eq_none_iff.2 (hnone later (List.mem_reverse.1 hlater))

/-- The last of the resources registered at an address is the one with the greatest place. -/
theorem getLast?_registeredAt (shelf : Shelf) (path : ResourcePath) {container : Container}
    (h : container.IsAscending) {resource : ResourceId} :
    (shelf.registeredAt path container).getLast? = some resource ↔
      resource ∈ shelf.registeredAt path container ∧
        ∀ other ∈ shelf.registeredAt path container, ∀ place place' : LumpId,
          container.position? other = some place → container.position? resource = some place' →
            place ≤ place' := by
  have hascending := h.ascending.sublist (List.filter_sublist
    (p := fun resource => (shelf.catalog.get? resource).any (·.path = path)))
  have hplaced : ∀ resource ∈ shelf.registeredAt path container,
      ∃ place, container.position? resource = some place := fun resource hmem =>
    Option.isSome_iff_exists.1 (h.placed resource (List.mem_of_mem_filter hmem))
  change (shelf.registeredAt path container).Pairwise _ at hascending
  generalize shelf.registeredAt path container = resources at hascending hplaced ⊢
  constructor
  · intro hlast
    obtain ⟨front, rfl⟩ := List.getLast?_eq_some_iff.1 hlast
    refine ⟨List.mem_append_right _ List.mem_cons_self, ?_⟩
    intro other hother place place' hplace hplace'
    rcases List.mem_append.1 hother with hfront | hself
    · have hlt := (List.pairwise_append.1 hascending).2.2 other hfront resource List.mem_cons_self
      exact Nat.le_of_lt (hlt place place' hplace hplace')
    · cases List.mem_singleton.1 hself
      cases hplace.symm.trans hplace'
      exact Nat.le_refl _
  · rintro ⟨hmem, hgreatest⟩
    cases hlast : resources.getLast? with
    | none =>
      rw [List.getLast?_eq_none_iff.1 hlast] at hmem
      cases hmem
    | some last =>
      obtain ⟨front, rfl⟩ := List.getLast?_eq_some_iff.1 hlast
      rcases List.mem_append.1 hmem with hfront | hself
      · -- the last one would be behind the greatest
        obtain ⟨place, hplace⟩ := hplaced resource hmem
        obtain ⟨place', hplace'⟩ := hplaced last (List.mem_append_right _ List.mem_cons_self)
        have hlt := (List.pairwise_append.1 hascending).2.2 resource hfront last
          List.mem_cons_self place place' hplace hplace'
        have hle := hgreatest last (List.mem_append_right _ List.mem_cons_self) place' place
          hplace' hplace
        exact absurd hlt (Nat.not_lt.2 hle)
      · rw [List.mem_singleton.1 hself]

/-- What stands for an address is, of the last container that registered anything there, the resource
with the greatest place. -/
theorem IsOrdered.lookup?_eq_some_iff {shelf : Shelf} (h : shelf.IsOrdered) {path : ResourcePath}
    {resource : ResourceId} :
    shelf.catalog.lookup? path = some resource ↔
      ∃ front container back, shelf.containers = front ++ container :: back ∧
        (∀ later ∈ back, shelf.registeredAt path later = []) ∧
        resource ∈ shelf.registeredAt path container ∧
        ∀ other ∈ shelf.registeredAt path container, ∀ place place' : LumpId,
          container.position? other = some place → container.position? resource = some place' →
            place ≤ place' := by
  have hlast : shelf.catalog.lookup? path = (shelf.catalog.lookupAll path).getLast? := by
    rw [Catalog.lookup?, Catalog.lookupAll, List.getLast?_reverse]
  rw [hlast, h.lookupAll_eq, getLast?_flatMap_eq_some_iff]
  refine exists_congr fun front => exists_congr fun container => exists_congr fun back =>
    and_congr_right fun hsplit => and_congr_right fun _ => ?_
  apply getLast?_registeredAt
  apply h.ascending
  rw [hsplit]
  exact List.mem_append_right _ List.mem_cons_self

/-- **Load order decides.**  However container ids were given out, containers of any kind opened,
under any ids, and whatever happened to the open ones: each container lists its resources by the
places of their lumps or files, and they are recorded as its own.  All resources at an address are
listed by container, in the order of opening, and inside a container by place; the one that stands
for the address is that of the last container which registered anything there and, in it, the one
with the greatest place.  Opening one more container records everything that it announces at its
place, under the address announced for that place.  And whatever is done next, no recorded resource
gets another address or another container. -/
theorem lookup_by_load_order (moves : List Move) :
    let shelf := empty.afterAll moves
    (∀ container ∈ shelf.containers, container.IsAscending ∧
      ∀ resource ∈ container.resourceIds, ∃ path,
        shelf.catalog.get? resource = some ⟨resource, path, container.id⟩) ∧
    (∀ path, shelf.catalog.lookupAll path =
      shelf.containers.flatMap (shelf.registeredAt path)) ∧
    (∀ path resource, shelf.catalog.lookup? path = some resource ↔
      ∃ front container back, shelf.containers = front ++ container :: back ∧
        (∀ later ∈ back, shelf.registeredAt path later = []) ∧
        resource ∈ shelf.registeredAt path container ∧
        ∀ other ∈ shelf.registeredAt path container, ∀ place place' : LumpId,
          container.position? other = some place → container.position? resource = some place' →
            place ≤ place') ∧
    (∀ (id : ContainerId) (opening : Opening),
      let next := shelf.after (.opens id opening)
      ∃ container, next.containers = shelf.containers ++ [container] ∧ container.id = id ∧
        container.resourceIds.length = (opening.offers id).length ∧
        ∀ (number : Nat) (place : LumpId) (path : ResourcePath),
          (opening.offers id)[number]? = some (place, path) →
            ∃ resource, container.resourceIds[number]? = some resource ∧
              container.position? resource = some place ∧
              next.catalog.get? resource = some ⟨resource, path, id⟩) ∧
    ∀ (more : List Move) (resource : ResourceId) (entry : CatalogEntry),
      shelf.catalog.get? resource = some entry →
        (shelf.afterAll more).catalog.get? resource = some entry := by
  intro shelf
  have hordered : shelf.IsOrdered := isOrdered_afterAll moves isOrdered_empty
  refine ⟨?_, hordered.lookupAll_eq, ?_, ?_, ?_⟩
  · intro container hcontainer
    exact ⟨hordered.ascending container hcontainer, fun _ => hordered.get?_of_mem hcontainer⟩
  · exact fun _ _ => hordered.lookup?_eq_some_iff
  · intro id opening next
    have hrecords := opening.records shelf.catalog id
    refine ⟨_, rfl, hrecords.id_eq, hrecords.length_resourceIds, ?_⟩
    intro number place path hoffer
    have hplace : ((opening.offers id).map (·.1))[number]? = some place := by
      rw [List.getElem?_map, hoffer]
      rfl
    have hpath : ((opening.offers id).map (·.2))[number]? = some path := by
      rw [List.getElem?_map, hoffer]
      rfl
    have hbound : number < (opening.run shelf.catalog id).container.resourceIds.length := by
      rw [hrecords.length_resourceIds]
      exact (List.getElem?_eq_some_iff.1 hoffer).1
    have hresource := List.getElem?_eq_getElem hbound
    exact ⟨_, hresource, hrecords.position?_of_getElem? hresource hplace,
      hrecords.get?_of_getElem? hresource hpath⟩
  · intro more resource entry hentry
    exact get?_afterAll more hentry

/-- A game: an archive of two lumps. -/
def game : Opening := .wadSource {} (.stream (.ofBytes
  ((Archive.Builder.empty .iwad).addLump "A" [1] |>.addLump "B" [2]).build))

/-- A patch for it, which has one lump twice. -/
def patch : Opening := .wadSource {} (.stream (.ofBytes
  ((Archive.Builder.empty .pwad).addLump "A" [3] |>.addLump "A" [4]).build))

/-- The game is opened, and asked something after the patch was opened. -/
def patching : List Move :=
  [.allocate, .opens ⟨0⟩ game, .allocate, .opens ⟨1⟩ patch,
    .happens 0 (.asked .empty (.loadAll ⟨0⟩))]

/-- The address of the lumps that both have. -/
def sharedPath : ResourcePath := Namespace.global.path.joinLump (.ofText "A")

theorem lookup_by_load_order_patched :
    let shelf := empty.afterAll patching
    shelf.catalog.lookupAll sharedPath = [⟨0⟩, ⟨2⟩, ⟨3⟩] ∧
      (shelf.afterAll patching).catalog.get? ⟨2⟩ = some ⟨⟨2⟩, sharedPath, ⟨1⟩⟩ := by
  intro shelf
  have hregistered : shelf.containers.map (shelf.registeredAt sharedPath) =
      [[⟨0⟩], [⟨2⟩, ⟨3⟩]] := by
    decide +kernel
  have hentry : shelf.catalog.get? ⟨2⟩ = some ⟨⟨2⟩, sharedPath, ⟨1⟩⟩ := by decide +kernel
  obtain ⟨-, hall, -, -, hstays⟩ := lookup_by_load_order patching
  refine ⟨?_, hstays patching ⟨2⟩ _ hentry⟩
  rw [hall, List.flatMap_def, hregistered]
  rfl

end Shelf

end WadCatalog
