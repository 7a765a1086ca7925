import WadCatalog.Proofs.ByteSource.Complete
import WadCatalog.Proofs.Container.Registration

/-
  What the classifier sees.

  A lump that no map and no marker claims is read and shown to the classifier, while the same source
  is used for all of them and each read moves its cursor.

  1. **Each lump by itself** (`followsFrom_of_mem_filings`).  A lump is filed with the source as the
     lumps in front of it left it, and its id says how many these are (`sourceBefore`).
  2. **What is made of one lump** (`identify_of_holds`, `identify_of_failed`, `identify_off`): if the
     source holds the bytes, the classifier is shown exactly those of the lump, wherever the cursor
     was; if they cannot be read, or nobody wants them looked at, it is not asked.
  3. **The calls in order** (`forall₂_examined`).  There is one for each lump that nothing claims.
     That these are all the calls there are is a fact about two runs: classifiers that agree on them
     file every lump alike (`fileLumps_classifier`).
-/

namespace WadCatalog.WadContainer

variable {σ : Type} [ByteSource σ]

/-! ## What is made of one lump -/

/-- If the bytes of a lump are to be looked at and cannot be read, the lump is filed unseen. -/
theorem identify_of_failed (context : OpenContext) {source : σ} {entry : LumpEntry}
    (h : (ByteSource.seek source entry.position).1 = false ∨
      (ByteSource.read (ByteSource.seek source entry.position).2 entry.size).1.length <
        entry.size) :
    (identify context source entry).1 = Namespace.global.path ∧
      (identify context source entry).2.1 = none := by
  unfold identify
  generalize ByteSource.seek source entry.position = outcome at h ⊢
  obtain ⟨moved, after⟩ := outcome
  split
  · cases moved with
    | false => exact ⟨rfl, rfl⟩
    | true =>
      rcases h with hfalse | hshort
      · cases hfalse
      · simp only
        rw [if_neg (Nat.ne_of_lt hshort)]
        exact ⟨rfl, rfl⟩
  · exact ⟨rfl, rfl⟩

/-- If nobody wants lumps looked at, every lump is filed unseen. -/
theorem identify_off {context : OpenContext} (h : context.config.classifyByContent = false)
    (source : σ) (entry : LumpEntry) :
    (identify context source entry).1 = Namespace.global.path ∧
      (identify context source entry).2.1 = none := by
  rw [identify, h]
  exact ⟨rfl, rfl⟩

/-- A source that holds its bytes shows those of a lump to the classifier, and no others. -/
theorem identify_of_holds {context : OpenContext} (h : context.config.classifyByContent = true)
    {bytes : Bytes} {source : σ} (hsource : ByteSource.Holds bytes source) {entry : LumpEntry}
    (hfits : entry.fitsWithin bytes.length = true) :
    (identify context source entry).1 =
        context.classifier entry.name (bytes.slice entry.position entry.size) ∧
      (identify context source entry).2.1 =
        some (entry.name, bytes.slice entry.position entry.size) := by
  have hinside := LumpEntry.position_add_size_le hfits
  have hposition := entry.position_lt_fileSeekLimit
  have hmoved := hsource.seek_eq (Nat.le_of_add_right_le hinside) hposition
  have hread := hsource.read_seek_eq hinside hposition
  have hlength := Bytes.length_slice_of_le hinside
  rw [identify, if_pos h]
  generalize ByteSource.seek source entry.position = outcome at hmoved hread
  obtain ⟨moved, after⟩ := outcome
  cases hmoved
  simp only at hread ⊢
  rw [hread, if_pos hlength]
  exact ⟨rfl, rfl⟩

/-- A classifier that agrees on what was shown leads to the same. -/
theorem identify_classifier {context : OpenContext} {classifier : Classifier} {source : σ}
    {entry : LumpEntry}
    (h : ∀ seen ∈ (identify context source entry).2.1,
      classifier seen.1 seen.2 = context.classifier seen.1 seen.2) :
    identify { context with classifier } source entry = identify context source entry := by
  unfold identify at h ⊢
  simp only
  split
  · split
    · rfl
    next moved heq =>
      rw [heq] at h
      simp only at h
      split
      next hwhole =>
        simp only [*, if_true] at h
        rw [h _ rfl]
      · rfl
  · rfl

/-! ## Each lump by itself -/

/-- A lump that is filed unseen, and that nothing claims, is in the global namespace. -/
theorem Filing.FollowsFrom.isUnseen {context : OpenContext} {source : σ} {filing : Filing}
    {entry : LumpEntry} (h : filing.FollowsFrom context source entry)
    (hunseen : (identify context source entry).1 = Namespace.global.path ∧
      (identify context source entry).2.1 = none) :
    filing.examined = none ∧
      (filing.claimed = none → filing.path = Namespace.global.path.joinLump entry.name) := by
  obtain ⟨hpath, hexamined⟩ := hunseen
  unfold FollowsFrom at h
  cases hclaimed : filing.claimed with
  | some space =>
    rw [hclaimed] at h
    exact ⟨h.2, nofun⟩
  | none =>
    rw [hclaimed] at h
    simp only at h
    rw [hpath, hexamined] at h
    exact ⟨h.2, fun _ => h.1⟩

/-- The source of a container after the lumps before the given one were filed. -/
def sourceBefore (context : OpenContext) (container : WadContainer σ) (lump : LumpId) : σ :=
  (fileLumps context container.directory container.markers .start container.source
    (container.directory.indexed.take lump)).2

/-- Every filing of a container is made for an entry of its directory that lies inside the source,
with the source as the lumps before it left it. -/
theorem followsFrom_of_mem_filings {context : OpenContext} {container : WadContainer σ}
    {filing : Filing} (hmem : filing ∈ (container.filings context).1) :
    ∃ entry, container.directory.get? filing.lump = some entry ∧
      entry.fitsWithin (ByteSource.size container.source) = true ∧
      filing.FollowsFrom context (container.sourceBefore context filing.lump) entry := by
  obtain ⟨front, entry, back, hsplit, hfits, hfollows⟩ := followsFrom_of_mem_fileLumps context
    container.directory container.markers container.directory.indexed .start container.source hmem
  have hentry : (entry, filing.lump) ∈ container.directory.indexed := by
    rw [hsplit]
    exact List.mem_append_right _ List.mem_cons_self
  -- the lumps in front of one are as many as its id says
  have hlength : front.length = filing.lump := by
    have hplace : container.directory.indexed[front.length]? = some (entry, filing.lump) := by
      rw [hsplit, List.getElem?_append_right (Nat.le_refl _), Nat.sub_self]
      rfl
    rw [LumpDirectory.indexed, List.getElem?_zipIdx, Option.map_eq_some_iff] at hplace
    obtain ⟨found, -, heq⟩ := hplace
    rw [← (Prod.mk.inj heq).2, Nat.zero_add]
  have hfront : container.directory.indexed.take filing.lump = front := by
    rw [hsplit, ← hlength, List.take_left]
  refine ⟨entry, LumpDirectory.get?_of_mem_indexed hentry, hfits, ?_⟩
  rw [sourceBefore, hfront]
  exact hfollows

/-- A source goes on holding its bytes while lumps are filed. -/
theorem holds_sourceBefore {context : OpenContext} {container : WadContainer σ} {bytes : Bytes}
    (h : ByteSource.Holds bytes container.source) (lump : LumpId) :
    ByteSource.Holds bytes (container.sourceBefore context lump) :=
  (ByteSource.isKept_holds bytes).fileLumps context container.directory container.markers _ .start h

/-! ## The calls in order -/

/-- That a filing is made with all bytes of a lump at hand: the classifier is shown the lump exactly
if nothing claims it, and then decides where it goes. -/
def Filing.IsWhole (context : OpenContext) (bytes : Bytes) (filing : Filing)
    (entry : LumpEntry) : Prop :=
  match filing.claimed with
  | some space => filing.path = space.path.joinLump entry.name ∧ filing.examined = none
  | none =>
    let data := bytes.slice entry.position entry.size
    filing.path = (context.classifier entry.name data).joinLump entry.name ∧
      filing.examined = some (entry.name, data)

/-- With a source that holds its bytes every filing is made with all bytes of the lump at hand. -/
theorem Filing.FollowsFrom.isWhole {context : OpenContext}
    (h : context.config.classifyByContent = true) {bytes : Bytes} {source : σ}
    (hsource : ByteSource.Holds bytes source) {filing : Filing} {entry : LumpEntry}
    (hfits : entry.fitsWithin bytes.length = true)
    (hfollows : filing.FollowsFrom context source entry) : filing.IsWhole context bytes entry := by
  obtain ⟨hpath, hexamined⟩ := identify_of_holds h hsource hfits
  unfold FollowsFrom at hfollows
  unfold IsWhole
  cases hclaimed : filing.claimed with
  | some space =>
    rw [hclaimed] at hfollows
    exact hfollows
  | none =>
    rw [hclaimed] at hfollows
    simp only at hfollows ⊢
    rw [hfollows.1, hfollows.2, hpath, hexamined]
    exact ⟨rfl, rfl⟩

/-- **The calls in order.**  The classifier is shown the lumps that nothing claims, each once and in
order. -/
theorem forall₂_examined {context : OpenContext} {directory : LumpDirectory} {bytes : Bytes}
    {filings : List Filing}
    (h : ∀ filing ∈ filings, ∃ entry, directory.get? filing.lump = some entry ∧
      filing.IsWhole context bytes entry) :
    List.Forall₂
      (fun lump seen => ∃ entry, directory.get? lump = some entry ∧
        seen = (entry.name, bytes.slice entry.position entry.size))
      (((filings.map Filing.decision).filter (·.2 = none)).map (·.1))
      (filings.filterMap (·.examined)) := by
  induction filings with
  | nil => exact .nil
  | cons filing rest ih =>
    have hrest := ih fun other hmem => h other (List.mem_cons_of_mem _ hmem)
    obtain ⟨entry, hentry, hwhole⟩ := h filing List.mem_cons_self
    unfold Filing.IsWhole at hwhole
    cases hclaimed : filing.claimed with
    | some space =>
      rw [hclaimed] at hwhole
      rw [List.map_cons, List.filter_cons_of_neg (by simp [Filing.decision, hclaimed]),
        List.filterMap_cons_none hwhole.2]
      exact hrest
    | none =>
      rw [hclaimed] at hwhole
      rw [List.map_cons, List.filter_cons_of_pos (by simp [Filing.decision, hclaimed]),
        List.filterMap_cons_some hwhole.2]
      exact .cons ⟨entry, hentry, rfl⟩ hrest

/-- A classifier that agrees on what was shown files every lump alike. -/
theorem fileLumps_classifier {context : OpenContext} {classifier : Classifier}
    {directory : LumpDirectory} {markers : MarkerTable} {lumps : List (LumpEntry × LumpId)}
    {placer : Placer} {source : σ}
    (h : ∀ filing ∈ (fileLumps context directory markers placer source lumps).1,
      ∀ seen ∈ filing.examined, classifier seen.1 seen.2 = context.classifier seen.1 seen.2) :
    fileLumps { context with classifier } directory markers placer source lumps =
      fileLumps context directory markers placer source lumps := by
  induction lumps generalizing placer source with
  | nil => rfl
  | cons lump rest ih =>
    obtain ⟨entry, id⟩ := lump
    by_cases hfits : entry.fitsWithin (ByteSource.size source) = true
    · simp only [fileLumps, if_pos hfits] at h ⊢
      have hrest := fun filing hmem => h filing (List.mem_cons_of_mem _ hmem)
      have hfirst := h _ List.mem_cons_self
      cases hspace : (placer.place directory markers id).1 with
      | some space =>
        rw [hspace] at hrest
        rw [ih hrest]
      | none =>
        rw [hspace] at hrest hfirst
        rw [identify_classifier hfirst, ih hrest]
    · simp only [fileLumps, if_neg hfits] at h ⊢
      exact ih h

/-- A classifier that agrees on what was shown registers every lump alike. -/
theorem register_classifier {ρ : Type} [Registry ρ] {context : OpenContext} {registry : ρ}
    {container : WadContainer σ} {classifier : Classifier}
    (h : ∀ seen ∈ (container.register context registry).1.filterMap (·.examined),
      classifier seen.1 seen.2 = context.classifier seen.1 seen.2) :
    container.register { context with classifier } registry =
      container.register context registry := by
  have hfilings : container.filings { context with classifier } = container.filings context := by
    unfold filings
    rw [fileLumps_classifier]
    intro filing hmem seen hseen
    exact h seen (List.mem_filterMap.2 ⟨filing, hmem, hseen⟩)
  rw [register, register, hfilings]

/-! ## Every filing of a container -/

section Filings

variable {context : OpenContext} {container : WadContainer σ} {filing : Filing}
  (hmem : filing ∈ (container.filings context).1)
include hmem

/-- With a source that holds its bytes, every filing is made with the whole lump at hand. -/
theorem isWhole_of_mem_filings (hon : context.config.classifyByContent = true) {bytes : Bytes}
    (hholds : ByteSource.Holds bytes container.source) :
    ∃ entry, container.directory.get? filing.lump = some entry ∧
      filing.IsWhole context bytes entry := by
  obtain ⟨entry, hentry, hfits, hfollows⟩ := followsFrom_of_mem_filings hmem
  rw [hholds.size_eq] at hfits
  exact ⟨entry, hentry, hfollows.isWhole hon (holds_sourceBefore hholds _) hfits⟩

/-- If nobody wants lumps looked at, every filing is made unseen. -/
theorem isUnseen_of_mem_filings (hoff : context.config.classifyByContent = false) :
    filing.examined = none ∧
      (filing.claimed = none → ∃ entry, container.directory.get? filing.lump = some entry ∧
        filing.path = Namespace.global.path.joinLump entry.name) := by
  obtain ⟨entry, hentry, -, hfollows⟩ := followsFrom_of_mem_filings hmem
  obtain ⟨hexamined, hpath⟩ := hfollows.isUnseen (identify_off hoff _ entry)
  exact ⟨hexamined, fun hclaimed => ⟨entry, hentry, hpath hclaimed⟩⟩

end Filings

/-- **What the classifier sees.**  Registration makes one filing for each lump inside the source, in
order, with what the placer answers for it, and announces the lumps at the addresses in the filings.
What the classifier was shown is all that it is asked: one that agrees on that leads to the same.

If lumps are to be looked at, and the source holds the bytes of the archive, the classifier is shown
exactly the lumps that nothing claims, each once and in order, by name and bytes, and each of them is
filed where the classifier wants it.  If lumps are not to be looked at, the classifier is shown
nothing.  Then, and whenever the bytes of such a lump cannot be reached or come short, the lump is
filed in the global namespace. -/
theorem register_classifies {ρ : Type} [Registry ρ] (context : OpenContext) (registry : ρ)
    (source : σ) (id : ContainerId) :
    let container := ofSource source id
    let directory := container.directory
    let within := directory.idsWithin (ByteSource.size source)
    let answers := Placer.placeAll directory (.build directory) .start within
    let unclaimed := ((within.zip answers).filter (·.2 = none)).map (·.1)
    let filings := (container.register context registry).1
    let shown := filings.filterMap (·.examined)
    filings.map Filing.decision = within.zip answers ∧
    (container.register context registry).2.2 =
      (Registry.addAll id registry (filings.map (·.path))).2 ∧
    (∀ classifier : Classifier,
      (∀ seen ∈ shown, classifier seen.1 seen.2 = context.classifier seen.1 seen.2) →
        container.register { context with classifier } registry =
          container.register context registry) ∧
    (context.config.classifyByContent = true → ∀ bytes, ByteSource.Holds bytes source →
      (ByteSource.isValid source = true → ∀ kind found,
        Archive.parse bytes = .ok (kind, found) → directory = found) ∧
      List.Forall₂
        (fun lump seen => ∃ entry, directory.get? lump = some entry ∧
          seen = (entry.name, bytes.slice entry.position entry.size)) unclaimed shown ∧
      ∀ filing ∈ filings, ∃ entry, directory.get? filing.lump = some entry ∧
        filing.IsWhole context bytes entry) ∧
    (context.config.classifyByContent = false → shown = [] ∧
      ∀ filing ∈ filings, filing.claimed = none →
        ∃ entry, directory.get? filing.lump = some entry ∧
          filing.path = Namespace.global.path.joinLump entry.name) ∧
    ∀ filing ∈ filings, filing.claimed = none →
      ∃ entry, directory.get? filing.lump = some entry ∧
        let moved := ByteSource.seek (container.sourceBefore context filing.lump) entry.position
        (moved.1 = false ∨ (ByteSource.read moved.2 entry.size).1.length < entry.size →
          filing.examined = none ∧
          filing.path = Namespace.global.path.joinLump entry.name) := by
  intro container directory within answers unclaimed filings shown
  have hsize : ByteSource.size container.source = ByteSource.size source := size_ofSource source id
  have hdecisions : filings.map Filing.decision = within.zip answers := by
    have hall := decisions_fileLumps context directory container.markers (ByteSource.size source)
      directory.indexed .start container.source hsize
    rw [LumpDirectory.keptIds_indexed] at hall
    exact hall
  refine ⟨hdecisions, ?_, ?_, ?_, ?_, ?_⟩
  · exact (register_eq_addAll context registry container rfl).2
  · exact fun classifier hagrees => register_classifier hagrees
  · intro hon bytes hholds
    have hread : ByteSource.Holds bytes container.source :=
      (ByteSource.isKept_holds bytes).readDirectory hholds
    have hwhole : ∀ filing ∈ filings, ∃ entry, directory.get? filing.lump = some entry ∧
        filing.IsWhole context bytes entry :=
      fun _ hmem => isWhole_of_mem_filings hmem hon hread
    refine ⟨?_, ?_, hwhole⟩
    · intro hvalid kind found hparse
      have hfound := hholds.readDirectory_eq hvalid hparse
      show (ofSource source id).directory = found
      rw [ofSource]
      simp only
      rw [hfound]
    · have hcalls := forall₂_examined hwhole
      rw [hdecisions] at hcalls
      exact hcalls
  · intro hoff
    constructor
    · apply List.filterMap_eq_nil_iff.2
      intro filing hmem
      exact (isUnseen_of_mem_filings hmem hoff).1
    · intro filing hmem hclaimed
      exact (isUnseen_of_mem_filings hmem hoff).2 hclaimed
  · intro filing hmem hclaimed
    obtain ⟨entry, hentry, -, hfollows⟩ := followsFrom_of_mem_filings hmem
    refine ⟨entry, hentry, ?_⟩
    intro moved hfailed
    obtain ⟨hexamined, hpath⟩ := hfollows.isUnseen (identify_of_failed context hfailed)
    exact ⟨hexamined, hpath hclaimed⟩

/-- An archive in which a marker range claims `TROOA1`, a map claims `MAP01` and `THINGS`, and `TORN`
is truncated. -/
def mixedArchive : Archive.Builder :=
  (Archive.Builder.empty .pwad).addLump "TITLEPIC" [0x89, 0x50]
    |>.addMarker "S_START"
    |>.addLump "TROOA1" [1, 2, 3]
    |>.addMarker "S_END"
    |>.addMarker "MAP01"
    |>.addLump "THINGS" [4]
    |>.addRecord "TORN" 12 0x7fffffff

/-- That archive with more bytes behind it, in a source that says how many belong to it. -/
def mixedSource : CustomSource :=
  { data := mixedArchive.build ++ [7, 7, 7], size := mixedArchive.build.length, isValid := true
    seekMax := none, readMax := none }

/-- A classifier that knows pictures. -/
def pictures : Classifier := fun _ data =>
  if data = [0x89, 0x50] then Namespace.hires.path else Namespace.global.path

/-- An archive with a lump longer than its table, in a source that never delivers so much. -/
def scarceSource : CustomSource :=
  let bytes := ((Archive.Builder.empty .pwad).addLump "LONG" (List.replicate 40 9)).build
  { data := bytes, size := bytes.length, isValid := true, seekMax := none, readMax := some 20 }

/-- The container over the first of these sources. -/
def mixedWad : WadContainer CustomSource := ofSource mixedSource ⟨0⟩

/-- The container over the second. -/
def scarceWad : WadContainer CustomSource := ofSource scarceSource ⟨0⟩

theorem register_classifies_mixed :
    (mixedWad.register { classifier := pictures } Catalog.empty).1.filterMap (·.examined) =
      [(.ofText "TITLEPIC", [0x89, 0x50]), (.ofText "S_START", []), (.ofText "S_END", [])] ∧
    (mixedWad.register { classifier := pictures, config := { classifyByContent := false } }
      Catalog.empty).1.filterMap (·.examined) = [] ∧
    ∃ filing ∈ (scarceWad.register { classifier := pictures } Catalog.empty).1,
      filing.path = Namespace.global.path.joinLump (.ofText "LONG") ∧ filing.examined = none := by
  refine ⟨?_, ?_, ?_⟩
  · have hholds : ByteSource.Holds (mixedSource.data.take mixedSource.size) mixedSource :=
      CustomSource.holds (by decide +kernel) rfl rfl
    obtain ⟨-, -, -, hon, -, -⟩ :=
      register_classifies { classifier := pictures } Catalog.empty mixedSource ⟨0⟩
    obtain ⟨-, hcalls, -⟩ := hon rfl _ hholds
    have hunclaimed : ((mixedWad.directory.idsWithin (ByteSource.size mixedSource)).zip
        (Placer.placeAll mixedWad.directory (.build mixedWad.directory) .start
          (mixedWad.directory.idsWithin (ByteSource.size mixedSource)))).filter (·.2 = none) =
        [(0, none), (1, none), (3, none)] := by
      decide +kernel
    have hentries : [0, 1, 3].map mixedWad.directory.get? =
        [some ⟨.ofText "TITLEPIC", 12, 2⟩, some ⟨.ofText "S_START", 14, 0⟩,
          some ⟨.ofText "S_END", 17, 0⟩] := by
      decide +kernel
    unfold mixedWad at hunclaimed hentries ⊢
    rw [hunclaimed] at hcalls
    generalize ((ofSource mixedSource ⟨0⟩).register { classifier := pictures }
      Catalog.empty).1.filterMap (·.examined) = shown at hcalls ⊢
    obtain ⟨hfirst, hsecond, hthird⟩ : _ ∧ _ ∧ _ := by simpa using hentries
    obtain _ | ⟨⟨first, hone, rfl⟩, _ | ⟨⟨second, htwo, rfl⟩, _ | ⟨⟨third, hthree, rfl⟩, _ | _⟩⟩⟩ :=
      hcalls
    cases hfirst.symm.trans hone
    cases hsecond.symm.trans htwo
    cases hthird.symm.trans hthree
    decide +kernel
  · obtain ⟨-, -, -, -, hoff, -⟩ := register_classifies
      { classifier := pictures, config := { classifyByContent := false } } Catalog.empty
      mixedSource ⟨0⟩
    exact (hoff rfl).1
  · obtain ⟨-, -, -, -, -, hfailed⟩ :=
      register_classifies { classifier := pictures } Catalog.empty scarceSource ⟨0⟩
    have hdecisions : (scarceWad.register { classifier := pictures }
        Catalog.empty).1.map Filing.decision = [(0, none)] := by
      decide +kernel
    have hentry : scarceWad.directory.get? 0 = some ⟨.ofText "LONG", 12, 40⟩ := by decide +kernel
    have hshort : (ByteSource.read (ByteSource.seek
        (scarceWad.sourceBefore { classifier := pictures } 0) 12).2 40).1.length < 40 := by
      decide +kernel
    unfold scarceWad at hdecisions hentry hshort ⊢
    obtain ⟨filing, hmem, hdecision⟩ := List.mem_map.1 (hdecisions ▸ List.mem_singleton_self _)
    obtain ⟨hlump, hclaimed⟩ := Prod.mk.inj hdecision
    obtain ⟨entry, hfound, hunseen⟩ := hfailed filing hmem hclaimed
    rw [hlump] at hfound hunseen
    cases hentry.symm.trans hfound
    obtain ⟨hexamined, hpath⟩ := hunseen (.inr hshort)
    exact ⟨filing, hmem, hpath, hexamined⟩

end WadCatalog.WadContainer
