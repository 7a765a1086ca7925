import WadCatalog.Proofs.Container.ReadContract

/-
  Archives of one map.

  An archive of one map is an archive of which nothing is registered, and whoever opens one archive
  in both ways has two containers with different pasts.  One has filed all lumps, shown some of them
  to the classifier and recorded resources, and both are asked anything afterwards.  None of that is
  seen through the lumps.

  1. **Where both come from** (`ReadFrom`).  Each has the kind, the lumps and the markers that were
     read from the source, and a source that was led on from there.  Reading leaves a container like
     that, registering keeps it (`ReadFrom.register`), and so does everything that leads its source on
     (`ReadFrom.lead`).
  2. **What follows for the lumps** (`ReadFrom.lumpSize_eq`, `ReadFrom.loadLump_eq`).  The size of a
     lump depends on the size of the source only, and a source that can be read completely still holds
     the bytes that it held first.
-/

namespace WadCatalog

namespace WadContainer

/-! ## Where an archive comes from -/

section ReadFrom

variable {σ : Type} [ByteSource σ]

/-- That an archive has what was read from a source, and that the source was led on since. -/
structure ReadFrom (source : σ) (archive : WadContainer σ) : Prop where
  kind : ∀ id, archive.kind = (ofSource source id).kind
  directory : ∀ id, archive.directory = (ofSource source id).directory
  markers : ∀ id, archive.markers = (ofSource source id).markers
  count : ∀ id, archive.count = (ofSource source id).count
  leads : ByteSource.Leads σ source archive.source

theorem readFrom_ofSource (source : σ) (id : ContainerId) : ReadFrom source (ofSource source id) :=
  ⟨fun _ => rfl, fun _ => rfl, fun _ => rfl, fun _ => rfl, leads_ofSource source id⟩

/-- Registering the lumps changes nothing of it. -/
theorem ReadFrom.register {ρ : Type} [Registry ρ] {source : σ} {archive : WadContainer σ}
    (h : ReadFrom source archive) (context : OpenContext) (registry : ρ) :
    ReadFrom source (archive.register context registry).2.1 :=
  ⟨h.kind, h.directory, h.markers, h.count, h.leads.trans (leads_register context registry archive)⟩

/-- Nor does it matter what file the archive was opened from. -/
theorem ReadFrom.withPath {source : σ} {archive : WadContainer σ} (h : ReadFrom source archive)
    (path : Option FilePath) : ReadFrom source { archive with path } :=
  ⟨h.kind, h.directory, h.markers, h.count, h.leads⟩

/-- Nor that the source is led on. -/
theorem ReadFrom.lead {source later : σ} {archive : WadContainer σ} (h : ReadFrom source archive)
    (hleads : ByteSource.Leads σ archive.source later) :
    ReadFrom source { archive with source := later } :=
  ⟨h.kind, h.directory, h.markers, h.count, h.leads.trans hleads⟩

/-! ## What follows for the lumps -/

section Lumps

variable {source : σ} {one other : WadContainer σ} (hone : ReadFrom source one)
  (hother : ReadFrom source other)
include hone hother

theorem ReadFrom.directory_eq : one.directory = other.directory :=
  (hone.directory ⟨0⟩).trans (hother.directory ⟨0⟩).symm

/-- The lumps have the same sizes. -/
theorem ReadFrom.lumpSize_eq (lump : LumpId) : one.lumpSize lump = other.lumpSize lump := by
  have hsize : ByteSource.size one.source = ByteSource.size other.source :=
    hone.leads.sameExtent.1.trans hother.leads.sameExtent.1.symm
  rw [lumpSize, lumpSize, hone.directory_eq hother, hsize]

/-- The lumps have the same bytes, if the source can be read completely. -/
theorem ReadFrom.loadLump_eq (hcomplete : ByteSource.IsComplete source) (lump : LumpId)
    (room : Nat) : (one.loadLump lump room).1 = (other.loadLump lump room).1 := by
  have hdirectory := hone.directory_eq hother
  by_cases hvalid : ByteSource.isValid source = true
  · obtain ⟨bytes, hholds⟩ := hcomplete hvalid
    rw [loadLump_eq_take (hone.leads.holds hholds), loadLump_eq_take (hother.leads.holds hholds),
      hdirectory]
  · -- without a stream nothing was read, and there are no lumps
    have hread : (readDirectory source).1 = .error .unavailable := by
      rw [readDirectory, if_neg hvalid]
    have hempty : other.directory = .empty := by
      rw [hother.directory ⟨0⟩, ofSource_of_error hread]
    rw [loadLump, loadLump, hdirectory, hempty]
    rfl

end Lumps

end ReadFrom

end WadContainer

namespace Container

/-! ## A life of either container -/

/-- An archive stays one that was read from its source. -/
theorem exists_wad_afterAll {source : AnySource} {archive : WadContainer AnySource}
    (h : archive.ReadFrom source) {events : List Event} (hspared : (wad archive).IsSpared events) :
    ∃ after, (wad archive).afterAll events = wad after ∧ after.ReadFrom source := by
  have hmoved := moved_afterAll_of_isSpared hspared
  generalize (wad archive).afterAll events = later at hmoved
  cases hmoved with
  | wad _ hleads => exact ⟨_, rfl, h.lead hleads⟩

/-- So does an archive of one map, and it goes on serving no resource. -/
theorem exists_mapWad_afterAll {source : AnySource} {map : MapWadContainer AnySource}
    (h : map.wad.ReadFrom source) (hempty : map.wad.lookup = .empty) {events : List Event}
    (hspared : (mapWad map).IsSpared events) :
    ∃ after, (mapWad map).afterAll events = mapWad after ∧ after.wad.ReadFrom source ∧
      after.wad.lookup = .empty := by
  have hmoved := moved_afterAll_of_isSpared hspared
  generalize (mapWad map).afterAll events = later at hmoved
  cases hmoved with
  | mapWad _ hleads => exact ⟨_, rfl, h.lead hleads, hempty⟩

end Container

namespace Opening

/-! ## Both ways of opening an archive -/

/-- That an opening reads an archive from a source and registers its lumps. -/
inductive OpensWad : AnySource → Opening → Prop where
  | source (context : OpenContext) (source : AnySource) :
    OpensWad source (wadSource context source)
  | explicit (disk : Disk) (context : OpenContext) (path : FilePath) :
    OpensWad (.stream (.openFile disk path)) (explicit .wad disk context path)
  | detected {disk : Disk} (context : OpenContext) {path : FilePath}
    (h : ContainerKind.detect disk path = .wad) :
    OpensWad (.stream (.openFile disk path)) (detected disk context path)

/-- That an opening reads an archive of one map from a source. -/
inductive OpensMap : AnySource → Opening → Prop where
  | source (source : AnySource) (mapName : Option LumpName) :
    OpensMap source (mapSource source mapName)
  | explicit (disk : Disk) (context : OpenContext) (path : FilePath) :
    OpensMap (.stream (.openFile disk path)) (explicit .mapWad disk context path)

variable {ρ : Type} [Registry ρ]

theorem OpensWad.exists_wad {source : AnySource} {opening : Opening} (h : OpensWad source opening)
    (registry : ρ) (id : ContainerId) :
    ∃ archive, (opening.run registry id).container = .wad archive ∧ archive.ReadFrom source := by
  cases h with
  | source context =>
    exact ⟨_, rfl, (WadContainer.readFrom_ofSource source id).register context registry⟩
  | explicit disk context path =>
    have hread := WadContainer.readFrom_ofSource (AnySource.stream (.openFile disk path)) id
    exact ⟨_, rfl, (hread.withPath (some path)).register context registry⟩
  | @detected disk context path hdetect =>
    have hread := WadContainer.readFrom_ofSource (AnySource.stream (.openFile disk path)) id
    refine ⟨_, ?_, (hread.withPath (some path)).register context registry⟩
    rw [run, Container.openAt, hdetect]
    rfl

theorem OpensMap.exists_mapWad {source : AnySource} {opening : Opening}
    (h : OpensMap source opening) (registry : ρ) (id : ContainerId) :
    (opening.run registry id).registry = registry ∧
      ∃ map, (opening.run registry id).container = .mapWad map ∧ map.wad.ReadFrom source ∧
        map.wad.lookup = .empty := by
  cases h with
  | source mapName => exact ⟨rfl, _, rfl, WadContainer.readFrom_ofSource source id, rfl⟩
  | explicit disk context path =>
    exact ⟨rfl, _, rfl, WadContainer.readFrom_ofSource (AnySource.stream (.openFile disk path)) id,
      rfl⟩

/-- **An archive of one map is the archive, unregistered.**  Open one source in both ways, into any
registries, with any classifier and options.  The archive of one map announces nothing; the two
containers have the same kind of archive, the same lumps, markers and count, and find the same lump
under every name.  Whatever happens to each of them afterwards, short of a change of the bytes, all
lumps have the same sizes, and the same bytes if the source can be read completely; and for the
archive of one map no resource has any bytes. -/
theorem map_reads_as_wad {τ : Type} [Registry τ] {source : AnySource} {one other : Opening}
    (hone : OpensWad source one) (hother : OpensMap source other) (registry : ρ) (registry' : τ)
    (id id' : ContainerId) :
    (other.run registry' id').registry = registry' ∧
    ∃ archive map, (one.run registry id).container = .wad archive ∧
      (other.run registry' id').container = .mapWad map ∧
      map.wad.kind = archive.kind ∧ map.wad.directory = archive.directory ∧
      map.wad.markers = archive.markers ∧ map.wad.count = archive.count ∧
      (∀ name, map.wad.findLump? name = archive.findLump? name) ∧
      ∀ events events' : List Container.Event, (Container.wad archive).IsSpared events →
        (Container.mapWad map).IsSpared events' →
          ∃ archive' map', (Container.wad archive).afterAll events = .wad archive' ∧
            (Container.mapWad map).afterAll events' = .mapWad map' ∧
            (∀ lump, map'.wad.lumpSize lump = archive'.lumpSize lump) ∧
            (ByteSource.IsComplete source → ∀ lump room,
              (map'.wad.loadLump lump room).1 = (archive'.loadLump lump room).1) ∧
            ∀ resource, (Container.mapWad map').sizeOf resource = 0 ∧
              ∀ disk buffer, (Container.mapWad map').fill disk resource buffer = (0, buffer) := by
  obtain ⟨archive, harchive, hreads⟩ := hone.exists_wad registry id
  obtain ⟨hregistry, map, hmap, hreads', hempty⟩ := hother.exists_mapWad registry' id'
  have hdirectory := hreads'.directory_eq hreads
  refine ⟨hregistry, archive, map, harchive, hmap, (hreads'.kind id).trans (hreads.kind id).symm,
    hdirectory, (hreads'.markers id).trans (hreads.markers id).symm,
    (hreads'.count id).trans (hreads.count id).symm, ?_, ?_⟩
  · intro name
    rw [WadContainer.findLump?, WadContainer.findLump?, hdirectory]
  · intro events events' hspared hspared'
    obtain ⟨archive', harchive', hstill⟩ := Container.exists_wad_afterAll hreads hspared
    obtain ⟨map', hmap', hstill', hempty'⟩ :=
      Container.exists_mapWad_afterAll hreads' hempty hspared'
    refine ⟨archive', map', harchive', hmap', fun lump => hstill'.lumpSize_eq hstill lump,
      fun hcomplete lump room => hstill'.loadLump_eq hstill hcomplete lump room, ?_⟩
    intro resource
    have hlump : map'.wad.lookup.lumpOf? resource = none := by rw [hempty']; rfl
    have hsilent := Container.isSilent_mapWad hlump
    exact ⟨hsilent.sizeOf, hsilent.fill⟩

/-- A source over an archive of two lumps. -/
def pairSource : AnySource := .stream (.ofBytes Container.pairArchive.build)

theorem map_reads_as_wad_pair :
    ∃ archive map,
      ((wadSource {} pairSource).run Catalog.empty ⟨0⟩).container.afterAll
        [.asked .empty (.loadAll ⟨1⟩)] = .wad archive ∧
      ((mapSource pairSource none).run Catalog.empty ⟨1⟩).container.afterAll
        [.asked .empty (.loadLump 0 [9])] = .mapWad map ∧
      (∀ lump room, (map.wad.loadLump lump room).1 = (archive.loadLump lump room).1) ∧
      (Container.mapWad map).sizeOf ⟨1⟩ = 0 ∧
      ((wadSource {} pairSource).run Catalog.empty ⟨0⟩).container.sizeOf ⟨1⟩ = 2 := by
  have hcomplete : ByteSource.IsComplete pairSource := fun _ =>
    ⟨_, (AnySource.mirrors_stream _).holds (Stream.isSteady_ofBytes _).holds⟩
  have hserved : ((wadSource {} pairSource).run Catalog.empty ⟨0⟩).container.sizeOf ⟨1⟩ = 2 := by
    decide +kernel
  obtain ⟨-, archive, map, harchive, hmap, -, -, -, -, -, hlater⟩ :=
    map_reads_as_wad (.source {} pairSource) (.source pairSource none) Catalog.empty Catalog.empty
      ⟨0⟩ ⟨1⟩
  obtain ⟨archive', map', harchive', hmap', -, hloads, hsilent⟩ :=
    hlater [.asked .empty (.loadAll ⟨1⟩)] [.asked .empty (.loadLump 0 [9])]
      (fun file content hmem => by simp at hmem) (fun file content hmem => by simp at hmem)
  rw [harchive, hmap]
  exact ⟨archive', map', harchive', hmap', hloads hcomplete, (hsilent ⟨1⟩).1, harchive ▸ hserved⟩

end Opening

end WadCatalog
