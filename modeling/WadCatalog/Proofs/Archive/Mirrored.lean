import WadCatalog.Container
import WadCatalog.Proofs.ByteSource.Mirror

/-
  Archives over sources that answer alike.

  Containers of all kinds are kept together, so the archives among them are over one type of source,
  while an archive can be opened over any.  Nothing is lost by that: an archive over a source and one
  over an image of the source are the same but for the source.

  1. **Reading** (`readDirectory_of_mirrors`, `mirrors_ofSource`).  The header and the table are
     answers of the source.
  2. **Filing** (`fileLumps_of_mirrors`, `Mirrors.register`).  So is what the classifier is shown.
     The induction is on the lumps, with the two sources as they are left by the lumps in front.
  3. **Loads** (`Mirrors.loadOne`, `Mirrors.loads_eq`), any number of them, one after another, of
     resources and of lumps.
  4. **All together** (`Container.openWadSource_of_any`, `Container.openMapSource_of_any`).  Whatever
     the type of a source, the container that is opened over its box announces and gives what the
     archive over the source itself does.
-/

namespace WadCatalog

namespace WadContainer

variable {σ τ : Type} [ByteSource σ] [ByteSource τ]

/-- The same archive over another source. -/
def withSource (container : WadContainer σ) (source : τ) : WadContainer τ :=
  { id := container.id, path := container.path, source, kind := container.kind
    directory := container.directory, markers := container.markers, lookup := container.lookup
    count := container.count }

/-- That an archive is mirrored by another one: the other one is the same, over an image of its
source. -/
def Mirrors (container : WadContainer σ) (image : WadContainer τ) : Prop :=
  ∃ source : τ, image = container.withSource source ∧ ByteSource.Mirrors container.source source

/-! ## Reading -/

/-- The same directory is read from an image of a source. -/
theorem readDirectory_of_mirrors {source : σ} {image : τ} (h : ByteSource.Mirrors source image) :
    (readDirectory image).1 = (readDirectory source).1 ∧
      ByteSource.Mirrors (readDirectory source).2 (readDirectory image).2 := by
  unfold readDirectory
  rw [h.isValid_eq]
  split
  next =>
    obtain ⟨hfront, hafter⟩ := h.readAt 0 Archive.Header.width
    simp only [hfront, hafter.size_eq]
    split
    next => exact ⟨rfl, hafter⟩
    next header _ =>
      split
      next => exact ⟨rfl, hafter⟩
      next =>
        obtain ⟨htable, hthen⟩ := hafter.readAt header.tableStart header.tableLength
        simp only [htable]
        split
        next => exact ⟨rfl, hthen⟩
        next => exact ⟨rfl, hthen⟩
  next => exact ⟨rfl, h⟩

/-- **Reading.**  The same archive is opened over an image of a source. -/
theorem mirrors_ofSource {source : σ} {image : τ} (h : ByteSource.Mirrors source image)
    (id : ContainerId) : (ofSource source id).Mirrors (ofSource image id) := by
  obtain ⟨houtcome, hafter⟩ := readDirectory_of_mirrors h
  refine ⟨(ofSource image id).source, ?_, hafter⟩
  unfold ofSource withSource
  simp only [houtcome, hafter.size_eq]

/-! ## Filing -/

/-- A lump of an image is classified as that of the source. -/
theorem identify_of_mirrors {source : σ} {image : τ} (h : ByteSource.Mirrors source image)
    (context : OpenContext) (entry : LumpEntry) :
    (identify context image entry).1 = (identify context source entry).1 ∧
      (identify context image entry).2.1 = (identify context source entry).2.1 ∧
      ByteSource.Mirrors (identify context source entry).2.2
        (identify context image entry).2.2 := by
  unfold identify
  split
  next =>
    obtain ⟨hmoved, hafter⟩ := h.seek entry.position
    -- both outcomes of the seek get names, so that one case split serves both
    generalize ByteSource.seek source entry.position = outcome at hmoved hafter ⊢
    generalize ByteSource.seek image entry.position = reflected at hmoved hafter ⊢
    obtain ⟨moved, later⟩ := outcome
    obtain ⟨same, laterImage⟩ := reflected
    cases hmoved
    cases moved with
    | false => exact ⟨rfl, rfl, hafter⟩
    | true =>
      obtain ⟨hdata, hthen⟩ := hafter.read entry.size
      simp only [hdata]
      split
      next => exact ⟨rfl, rfl, hthen⟩
      next => exact ⟨rfl, rfl, hthen⟩
  next => exact ⟨rfl, rfl, h⟩

/-- The lumps of an image are filed as those of the source. -/
theorem fileLumps_of_mirrors (context : OpenContext) (directory : LumpDirectory)
    (markers : MarkerTable) {source : σ} {image : τ} (h : ByteSource.Mirrors source image)
    (placer : Placer) (lumps : List (LumpEntry × LumpId)) :
    (fileLumps context directory markers placer image lumps).1 =
        (fileLumps context directory markers placer source lumps).1 ∧
      ByteSource.Mirrors (fileLumps context directory markers placer source lumps).2
        (fileLumps context directory markers placer image lumps).2 := by
  -- lumps in front move the cursors and the placer, so these stay quantified over
  induction lumps generalizing source image placer with
  | nil => exact ⟨rfl, h⟩
  | cons lump rest ih =>
    obtain ⟨entry, id⟩ := lump
    unfold fileLumps
    rw [h.size_eq]
    split
    next =>
      obtain ⟨space, later⟩ := placer.place directory markers id
      cases space with
      | some space =>
        obtain ⟨hfilings, hafter⟩ := ih h later
        exact ⟨congrArg (List.cons _) hfilings, hafter⟩
      | none =>
        obtain ⟨habove, hexamined, hmirrors⟩ := identify_of_mirrors h context entry
        obtain ⟨hfilings, hafter⟩ := ih hmirrors later
        simp only [habove, hexamined, hfilings]
        exact ⟨trivial, hafter⟩
    next => exact ih h placer

/-- **Filing.**  An image announces what the archive does, and shows the classifier the same. -/
theorem Mirrors.register {ρ : Type} [Registry ρ] {container : WadContainer σ}
    {image : WadContainer τ} (h : container.Mirrors image) (context : OpenContext) (registry : ρ) :
    (image.register context registry).1 = (container.register context registry).1 ∧
      (container.register context registry).2.1.Mirrors (image.register context registry).2.1 ∧
      (image.register context registry).2.2 = (container.register context registry).2.2 := by
  obtain ⟨source, rfl, hsource⟩ := h
  obtain ⟨hfilings, hafter⟩ := fileLumps_of_mirrors context container.directory container.markers
    hsource .start container.directory.indexed
  have hsame : ((container.withSource source).filings context).1 =
      (container.filings context).1 := hfilings
  unfold WadContainer.register
  simp only [hsame]
  exact ⟨trivial, ⟨_, rfl, hafter⟩, rfl⟩

/-! ## Loads -/

section Loads

variable {container : WadContainer σ} {image : WadContainer τ} (h : container.Mirrors image)
include h

/-- An image has registered the same resources. -/
theorem Mirrors.resourceIds_eq : image.resourceIds = container.resourceIds := by
  obtain ⟨source, rfl, -⟩ := h
  rfl

/-- A lump of an image is as long as that of the archive. -/
theorem Mirrors.lumpSize_eq (lump : LumpId) : image.lumpSize lump = container.lumpSize lump := by
  obtain ⟨source, rfl, hsource⟩ := h
  unfold lumpSize
  rw [show ByteSource.size (container.withSource source).source = _ from hsource.size_eq]
  rfl

/-- So is a resource. -/
theorem Mirrors.sizeOf_eq (resource : ResourceId) :
    image.sizeOf resource = container.sizeOf resource := by
  have hlump := h.lumpSize_eq
  obtain ⟨source, rfl, -⟩ := h
  unfold WadContainer.sizeOf
  simp only [hlump]
  rfl

/-- A load of a lump gives the same. -/
theorem Mirrors.loadLump (lump : LumpId) (room : Nat) :
    (image.loadLump lump room).1 = (container.loadLump lump room).1 ∧
      (container.loadLump lump room).2.Mirrors (image.loadLump lump room).2 := by
  have hsize := h.lumpSize_eq lump
  obtain ⟨source, rfl, hsource⟩ := h
  have hstill : container.Mirrors (container.withSource source) := ⟨source, rfl, hsource⟩
  unfold WadContainer.loadLump
  rw [hsize, show (container.withSource source).directory = container.directory from rfl]
  cases container.directory.get? lump with
  | none => exact ⟨rfl, hstill⟩
  | some entry =>
    simp only
    split
    next => exact ⟨rfl, hstill⟩
    next =>
      obtain ⟨hdata, hafter⟩ := hsource.readAt entry.position (min room (container.lumpSize lump))
      exact ⟨hdata, _, rfl, hafter⟩

/-- So does a load of a resource. -/
theorem Mirrors.load (resource : ResourceId) (room : Nat) :
    (image.load resource room).1 = (container.load resource room).1 ∧
      (container.load resource room).2.Mirrors (image.load resource room).2 := by
  have hlump := h.loadLump
  obtain ⟨source, rfl, hsource⟩ := h
  unfold WadContainer.load
  rw [show (container.withSource source).lookup = container.lookup from rfl]
  split
  next lump _ => exact hlump lump room
  next => exact ⟨rfl, source, rfl, hsource⟩

end Loads

/-- What can be loaded of an archive. -/
inductive Wanted where
  /-- A resource that the archive registered. -/
  | resource (id : ResourceId)
  /-- A lump, registered or not. -/
  | lump (id : LumpId)

/-- At most `room` bytes of what is wanted. -/
def loadOne (container : WadContainer σ) (wanted : Wanted) (room : Nat) : Bytes × WadContainer σ :=
  match wanted with
  | .resource id => container.load id room
  | .lump id => container.loadLump id room

/-- What an archive gives to some loads, one after another, each with its room. -/
def loads (container : WadContainer σ) : List (Wanted × Nat) → List Bytes
  | [] => []
  | (wanted, room) :: rest =>
    let (data, container) := container.loadOne wanted room
    data :: loads container rest

/-- One load gives the same. -/
theorem Mirrors.loadOne {container : WadContainer σ} {image : WadContainer τ}
    (h : container.Mirrors image) (wanted : Wanted) (room : Nat) :
    (image.loadOne wanted room).1 = (container.loadOne wanted room).1 ∧
      (container.loadOne wanted room).2.Mirrors (image.loadOne wanted room).2 := by
  cases wanted with
  | resource id => exact h.load id room
  | lump id => exact h.loadLump id room

/-- **Loads**, however many there are, give the same. -/
theorem Mirrors.loads_eq {container : WadContainer σ} {image : WadContainer τ}
    (h : container.Mirrors image) (calls : List (Wanted × Nat)) :
    image.loads calls = container.loads calls := by
  -- a load moves the cursors, so both archives stay quantified over
  induction calls generalizing container image with
  | nil => rfl
  | cons call rest ih =>
    obtain ⟨wanted, room⟩ := call
    obtain ⟨hdata, hafter⟩ := h.loadOne wanted room
    show (image.loadOne wanted room).1 :: loads (image.loadOne wanted room).2 rest =
      (container.loadOne wanted room).1 :: loads (container.loadOne wanted room).2 rest
    rw [hdata, ih hafter]

end WadContainer

/-! ## All together -/

namespace Container

variable {σ : Type} [ByteSource σ]

/-- **An archive over a source of any type** announces and gives the same as the container that is
opened over the box of the source. -/
theorem openWadSource_of_any {ρ : Type} [Registry ρ] (source : σ) (context : OpenContext)
    (registry : ρ) (id : ContainerId) :
    let archive := (WadContainer.ofSource source id).register context registry
    let opened := openWadSource context registry (.boxed (.box source)) id
    opened.registry = archive.2.2 ∧ opened.examined = archive.1.filterMap (·.examined) ∧
      ∃ image, opened.container = wad image ∧ archive.2.1.Mirrors image ∧
        opened.container.resourceIds = archive.2.1.resourceIds ∧
        (∀ resource, opened.container.sizeOf resource = archive.2.1.sizeOf resource) ∧
        ∀ calls, image.loads calls = archive.2.1.loads calls := by
  intro archive opened
  have hread := WadContainer.mirrors_ofSource (AnySource.mirrors_any source) id
  obtain ⟨hfilings, hmirrors, hregistry⟩ := hread.register context registry
  exact ⟨hregistry, congrArg _ hfilings, _, rfl, hmirrors, hmirrors.resourceIds_eq,
    hmirrors.sizeOf_eq, hmirrors.loads_eq⟩

/-- So does an archive of one map. -/
theorem openMapSource_of_any (source : σ) (id : ContainerId) (mapName : Option LumpName) :
    let map := MapWadContainer.ofSource source id mapName
    ∃ image, openMapSource (.boxed (.box source)) id mapName = mapWad image ∧
      image.mapPath? = map.mapPath? ∧ map.wad.Mirrors image.wad ∧
      (∀ lump, image.wad.lumpSize lump = map.wad.lumpSize lump) ∧
      ∀ calls, image.wad.loads calls = map.wad.loads calls := by
  intro map
  have hread := WadContainer.mirrors_ofSource (AnySource.mirrors_any source) id
  exact ⟨_, rfl, rfl, hread, hread.lumpSize_eq, hread.loads_eq⟩

end Container

end WadCatalog
