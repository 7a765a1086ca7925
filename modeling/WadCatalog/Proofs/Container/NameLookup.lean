import WadCatalog.Archive.Builder
import WadCatalog.Proofs.Catalog.Sharing
import WadCatalog.Proofs.Container.Registration
import WadCatalog.Proofs.Marker.Scan
import WadCatalog.Proofs.Text.Encoding

/-
  Finding a lump by its name, and finding it by its address.

  An archive finds a lump by the bytes of its name, and the catalog by an address that ends in the
  text of its name.  Of several lumps with one name both mean the last.  But text is read with a
  replacement character at each ill-formed place, so two names can read the same, and then their lumps
  may share an address.  That is the only way:

  1. **Names that read the same** (`LumpName.replacement_mem_text`).  Two names of one text hold an
     ill-formed place or a replacement character, for without them the bytes are those of the text.
  2. **What is registered** (`registeredAt_iff`).  The resources of an archive that is the first to
     register are numbered by the lumps inside the source, so the last resource at an address is that
     of the last lump there.
  3. **The last lump of a name** (`LumpDirectory.find?_eq_some_iff`) has no lump of its name behind it.
     If it does not stand for its address, a lump with another name of the same text does.
-/

namespace WadCatalog

/-! ## Names that read the same -/

namespace LumpName

variable {name other : LumpName}

/-- Different names with one text have a replacement character in it. -/
theorem replacement_mem_text (hne : name ≠ other) (htext : name.text = other.text) :
    Utf8.replacement ∈ name.text.toList := by
  apply Decidable.byContradiction
  intro hnone
  have hname : Utf8.encode name.text = name.trimmed := Utf8.encode_decodeLossy hnone
  rw [htext] at hnone
  have hother : Utf8.encode other.text = other.trimmed := Utf8.encode_decodeLossy hnone
  exact hne (LumpName.ext (by rw [← hname, htext, hother]))

/-- Nor are both of them well-formed. -/
theorem decode?_eq_none (hne : name ≠ other) (htext : name.text = other.text) :
    Utf8.decode? name.trimmed = none ∨ Utf8.decode? other.trimmed = none := by
  cases hname : Utf8.decode? name.trimmed with
  | none => exact .inl rfl
  | some text =>
    cases hother : Utf8.decode? other.trimmed with
    | none => exact .inr rfl
    | some text' =>
      obtain ⟨hread, hbytes⟩ := Utf8.of_decode? hname
      obtain ⟨hread', hbytes'⟩ := Utf8.of_decode? hother
      have hsame : text = text' := hread.symm.trans (htext.trans hread')
      exact absurd (LumpName.ext (by rw [← hbytes, hsame, hbytes'])) hne

end LumpName

/-! ## The last lump of a name -/

/-- The lump found by a name is the last one of that name. -/
theorem LumpDirectory.find?_eq_some_iff {directory : LumpDirectory} {name : LumpName}
    {lump : LumpId} :
    directory.find? name = some lump ↔
      directory.name? lump = some name ∧
        ∀ later, lump < later → directory.name? later ≠ some name := by
  have hlast : directory.find? name = some lump ↔ lump < directory.length ∧
      decide (directory.name? lump = some name) = true ∧
        ∀ later, lump < later → later < directory.length →
          decide (directory.name? later = some name) = false :=
    lastBefore?_eq_some_iff
  have hinside : ∀ id, directory.name? id = some name → id < directory.length := by
    intro id hname
    obtain ⟨entry, hentry, -⟩ := Option.map_eq_some_iff.1 hname
    exact (Array.getElem?_eq_some_iff.1 hentry).1
  rw [hlast]
  simp only [decide_eq_true_eq, decide_eq_false_iff_not]
  constructor
  · rintro ⟨-, hname, hlater⟩
    exact ⟨hname, fun later hlt hother => hlater later hlt (hinside later hother) hother⟩
  · rintro ⟨hname, hlater⟩
    exact ⟨hinside lump hname, hname, fun later hlt _ => hlater later hlt⟩

namespace WadContainer

variable {σ : Type} [ByteSource σ]

/-! ## What is registered -/

/-- The container over an archive that is registered in an empty catalog, and that catalog. -/
def published (context : OpenContext) (source : σ) (id : ContainerId) : WadContainer σ × Catalog :=
  ((ofSource source id).register context Catalog.empty).2

/-- That a lump of such an archive was registered, as which resource and at which address. -/
structure RegisteredAt (context : OpenContext) (source : σ) (id : ContainerId) (lump : LumpId)
    (resource : ResourceId) (path : ResourcePath) : Prop where
  /-- The container has the resource for the lump. -/
  listed : (published context source id).1.lookup.resourceOf? lump = some resource
  /-- The catalog has the address for the resource. -/
  recorded : (published context source id).2.get? resource = some ⟨resource, path, id⟩

variable {context : OpenContext} {source : σ} {id : ContainerId} {lump other : LumpId}
  {resource resource' : ResourceId} {path : ResourcePath}

theorem lookup_published :
    (published context source id).1.lookup =
      IdMap.empty.insertAll (((ofSource source id).answers context Catalog.empty).zip
        ((ofSource source id).directory.idsWithin (ByteSource.size source))) := by
  have hlookup := (register_eq_addAll context Catalog.empty (ofSource source id) rfl).1
  rw [size_ofSource] at hlookup
  exact hlookup

theorem catalog_published :
    (published context source id).2 =
      (Registry.addAll id Catalog.empty ((ofSource source id).addresses context)).2 :=
  (register_eq_addAll context Catalog.empty (ofSource source id) rfl).2

/-- The resource for a lump is its place among those inside the source. -/
theorem resourceOf?_published {place : Nat}
    (hlump : ((ofSource source id).directory.idsWithin (ByteSource.size source))[place]? =
      some lump) :
    (published context source id).1.lookup.resourceOf? lump =
      ((ofSource source id).addresses context)[place]?.map fun _ => ⟨place⟩ := by
  have hlength := length_answers context Catalog.empty (ofSource source id)
  rw [size_ofSource] at hlength
  have hanswer := Catalog.getElem?_answers (ofSource source id).id .empty
    ((ofSource source id).addresses context) place
  rw [show Catalog.empty.length + place = place from Nat.zero_add place] at hanswer
  rw [lookup_published,
    IdMap.resourceOf?_zip hlength (LumpDirectory.pairwise_idsWithin _ _) hlump]
  exact hanswer

/-- The resource of a number has the address at this place. -/
theorem get?_published (place : Nat) :
    (published context source id).2.get? ⟨place⟩ =
      ((ofSource source id).addresses context)[place]?.map fun path => ⟨⟨place⟩, path, id⟩ := by
  have hentry := Catalog.getElem?_entriesFrom id 0 ((ofSource source id).addresses context) place
  rw [Nat.zero_add] at hentry
  rw [catalog_published, Catalog.get?, ← Array.getElem?_toList, Catalog.entries_addAll]
  exact hentry

/-- **What is registered** are the lumps inside the source, as resources with the numbers of their
places. -/
theorem registeredAt_iff :
    RegisteredAt context source id lump resource path ↔ ∃ place : Nat,
      ((ofSource source id).directory.idsWithin (ByteSource.size source))[place]? = some lump ∧
        ((ofSource source id).addresses context)[place]? = some path ∧ resource = ⟨place⟩ := by
  constructor
  · rintro ⟨hlisted, hrecorded⟩
    by_cases hmem : lump ∈ (ofSource source id).directory.idsWithin (ByteSource.size source)
    · obtain ⟨place, hplace⟩ := List.mem_iff_getElem?.1 hmem
      rw [resourceOf?_published hplace] at hlisted
      obtain ⟨found, hfound, rfl⟩ := Option.map_eq_some_iff.1 hlisted
      rw [get?_published, hfound] at hrecorded
      cases hrecorded
      exact ⟨place, hplace, hfound, rfl⟩
    · rw [lookup_published, IdMap.resourceOf?_zip_of_not_mem hmem] at hlisted
      cases hlisted
  · rintro ⟨place, hplace, hpath, rfl⟩
    constructor
    · rw [resourceOf?_published hplace, hpath]
      rfl
    · rw [get?_published, hpath]
      rfl

/-- Every lump inside the source is registered. -/
theorem exists_registeredAt {entry : LumpEntry}
    (hentry : (ofSource source id).directory.get? lump = some entry)
    (hfits : entry.fitsWithin (ByteSource.size source) = true) :
    ∃ resource path, RegisteredAt context source id lump resource path := by
  obtain ⟨place, hplace⟩ :=
    List.mem_iff_getElem?.1 (LumpDirectory.mem_idsWithin.2 ⟨entry, hentry, hfits⟩)
  have haddress := length_addresses context (ofSource source id)
  have hbound := (List.getElem?_eq_some_iff.1 hplace).1
  rw [size_ofSource] at haddress
  rw [← haddress] at hbound
  have hpath := List.getElem?_eq_getElem hbound
  exact ⟨⟨place⟩, _, registeredAt_iff.2 ⟨place, hplace, hpath, rfl⟩⟩

/-- A lump that is registered has a name, and its address ends in the text of it. -/
theorem RegisteredAt.exists_name (h : RegisteredAt context source id lump resource path) :
    ∃ name, (ofSource source id).directory.name? lump = some name ∧
      path.last? = some name.text := by
  obtain ⟨place, hplace, hpath, -⟩ := registeredAt_iff.1 h
  rw [← size_ofSource source id] at hplace
  obtain ⟨found, entry, hfound, hentry, hlast⟩ : ∃ found entry,
      ((ofSource source id).addresses context)[place]? = some found ∧
        (ofSource source id).directory.get? lump = some entry ∧
          found.last? = some entry.name.text := last?_addresses hplace
  cases hpath.symm.trans hfound
  refine ⟨entry.name, ?_, hlast⟩
  rw [LumpDirectory.name?, hentry]
  rfl

/-- Lumps at one address have names of one text. -/
theorem RegisteredAt.text_eq (h : RegisteredAt context source id lump resource path)
    (hother : RegisteredAt context source id other resource' path) {name name' : LumpName}
    (hname : (ofSource source id).directory.name? lump = some name)
    (hname' : (ofSource source id).directory.name? other = some name') : name.text = name'.text := by
  obtain ⟨found, hfound, hlast⟩ := h.exists_name
  obtain ⟨found', hfound', hlast'⟩ := hother.exists_name
  cases hname.symm.trans hfound
  cases hname'.symm.trans hfound'
  exact Option.some.inj (hlast.symm.trans hlast')

/-- Resources are numbered in the order of their lumps. -/
theorem RegisteredAt.le (h : RegisteredAt context source id lump resource path)
    {path' : ResourcePath} (hother : RegisteredAt context source id other resource' path')
    (hle : resource.number ≤ resource'.number) : lump ≤ other := by
  obtain ⟨place, hplace, -, rfl⟩ := registeredAt_iff.1 h
  obtain ⟨place', hplace', -, rfl⟩ := registeredAt_iff.1 hother
  have hascending := (ofSource source id).directory.pairwise_idsWithin (ByteSource.size source)
  rcases Nat.lt_or_eq_of_le hle with hlt | heq
  · obtain ⟨hbound, rfl⟩ := List.getElem?_eq_some_iff.1 hplace
    obtain ⟨hbound', rfl⟩ := List.getElem?_eq_some_iff.1 hplace'
    exact Nat.le_of_lt (List.pairwise_iff_getElem.1 hascending _ _ hbound hbound' hlt)
  · obtain rfl : place = place' := heq
    cases hplace.symm.trans hplace'
    exact Nat.le_refl _

/-- **The last lump at an address** stands for it. -/
theorem RegisteredAt.exists_last (h : RegisteredAt context source id lump resource path) :
    ∃ last lastResource, RegisteredAt context source id last lastResource path ∧
      (published context source id).2.lookup? path = some lastResource ∧
      ∀ other resource', RegisteredAt context source id other resource' path → other ≤ last := by
  have hconsistent : (published context source id).2.IsConsistent := by
    rw [catalog_published]
    exact Catalog.isConsistent_addAll Catalog.isConsistent_empty _ _
  obtain ⟨⟨place⟩, hlookup, ⟨found, hfound, hpath⟩, hgreatest⟩ :=
    hconsistent.exists_lookup? h.recorded
  -- the resource found is that of a lump, since there are as many addresses as lumps
  rw [get?_published, Option.map_eq_some_iff] at hfound
  obtain ⟨address, haddress, rfl⟩ := hfound
  obtain rfl : address = path := hpath
  have hbound := (List.getElem?_eq_some_iff.1 haddress).1
  rw [length_addresses, size_ofSource] at hbound
  have hlast := registeredAt_iff.2 ⟨place, List.getElem?_eq_getElem hbound, haddress, rfl⟩
  refine ⟨_, _, hlast, hlookup, ?_⟩
  intro other resource' hother
  exact hother.le hlast (hgreatest _ _ hother.recorded rfl)

/-- **Names and addresses.**  Let an archive be the first to register.  Every lump inside the source is
registered.  If lumps with different names are registered at one address, then the names read the same,
with a replacement character in their text, and one of them is ill-formed.  So if the lump found by a
name is registered at an address, the resource that stands for the address is that of the lump, or
that of a lump behind it with another name of the same text; the first always if the text of the
name has no replacement character. -/
theorem names_and_addresses (context : OpenContext) (source : σ) (id : ContainerId) :
    let directory := (ofSource source id).directory
    let opened := (published context source id).1
    let catalog := (published context source id).2
    (∀ lump entry, directory.get? lump = some entry →
      entry.fitsWithin (ByteSource.size source) = true →
        ∃ resource path, RegisteredAt context source id lump resource path) ∧
    (∀ lump other resource resource' path name name',
      RegisteredAt context source id lump resource path →
      RegisteredAt context source id other resource' path →
      directory.name? lump = some name → directory.name? other = some name' → name ≠ name' →
        name.text = name'.text ∧ Utf8.replacement ∈ name.text.toList ∧
          (Utf8.decode? name.trimmed = none ∨ Utf8.decode? name'.trimmed = none)) ∧
    ∀ name lump resource path, opened.findLump? name = some lump →
      RegisteredAt context source id lump resource path →
        (∃ last lastResource lastName, RegisteredAt context source id last lastResource path ∧
          (∀ other resource', RegisteredAt context source id other resource' path → other ≤ last) ∧
          catalog.lookup? path = some lastResource ∧ directory.name? last = some lastName ∧
          (last = lump ∨ lump < last ∧ lastName ≠ name ∧ lastName.text = name.text)) ∧
        (Utf8.replacement ∉ name.text.toList → catalog.lookup? path = some resource) := by
  intro directory opened catalog
  have hapart : ∀ lump other resource resource' path name name',
      RegisteredAt context source id lump resource path →
      RegisteredAt context source id other resource' path →
      directory.name? lump = some name → directory.name? other = some name' → name ≠ name' →
        name.text = name'.text ∧ Utf8.replacement ∈ name.text.toList ∧
          (Utf8.decode? name.trimmed = none ∨ Utf8.decode? name'.trimmed = none) := by
    intro lump other resource resource' path name name' hlump hother hname hname' hne
    have htext := hlump.text_eq hother hname hname'
    exact ⟨htext, LumpName.replacement_mem_text hne htext, LumpName.decode?_eq_none hne htext⟩
  refine ⟨?_, hapart, ?_⟩
  · intro lump entry hentry hfits
    exact exists_registeredAt hentry hfits
  · intro name lump resource path hfind hlump
    obtain ⟨hname, hlater⟩ := LumpDirectory.find?_eq_some_iff.1 hfind
    obtain ⟨last, lastResource, hlast, hlookup, hgreatest⟩ := hlump.exists_last
    obtain ⟨lastName, hlastName, -⟩ := hlast.exists_name
    rcases Nat.lt_or_eq_of_le (hgreatest lump resource hlump) with hlt | rfl
    · -- behind the last lump of the name there are only others
      have hne : lastName ≠ name := by
        rintro rfl
        exact hlater last hlt hlastName
      obtain ⟨htext, hmem, -⟩ := hapart _ _ _ _ _ _ _ hlast hlump hlastName hname hne
      refine ⟨⟨last, lastResource, lastName, hlast, hgreatest, hlookup, hlastName,
        .inr ⟨hlt, hne, htext⟩⟩, ?_⟩
      intro hnone
      exact absurd (htext ▸ hmem) hnone
    · refine ⟨⟨lump, lastResource, lastName, hlast, hgreatest, hlookup, hlastName,
        .inl rfl⟩, ?_⟩
      intro _
      rw [hlookup, ← hlast.listed, hlump.listed]

/-- An archive with two names that are ill-formed, and one name that comes twice. -/
def illFormedNames : Archive.Builder :=
  (Archive.Builder.empty .pwad).add (.holding (.ofRaw [0xFF]) [1])
    |>.addLump "A" [2]
    |>.add (.holding (.ofRaw [0xFE]) [3])
    |>.addLump "A" [4]

/-- Lumps with different names may share an address, and what is found by the name of one is then not
what is found at its address. -/
theorem not_apart_by_name :
    (¬ ∀ (bytes : Bytes) (id : ContainerId) (config : Config) (lump other : LumpId)
      (resource resource' : ResourceId) (path path' : ResourcePath) (name name' : LumpName),
      RegisteredAt { config } (Stream.ofBytes bytes) id lump resource path →
      RegisteredAt { config } (Stream.ofBytes bytes) id other resource' path' →
      (ofSource (Stream.ofBytes bytes) id).directory.name? lump = some name →
      (ofSource (Stream.ofBytes bytes) id).directory.name? other = some name' → name ≠ name' →
        path ≠ path') ∧
    ¬ ∀ (bytes : Bytes) (id : ContainerId) (config : Config) (name : LumpName) (lump : LumpId)
      (resource : ResourceId) (path : ResourcePath),
      (published { config } (Stream.ofBytes bytes) id).1.findLump? name = some lump →
      RegisteredAt { config } (Stream.ofBytes bytes) id lump resource path →
        (published { config } (Stream.ofBytes bytes) id).2.lookup? path = some resource := by
  have hone : RegisteredAt {} (Stream.ofBytes illFormedNames.build) ⟨0⟩ 0 ⟨0⟩
      ⟨["GLOBAL", "\ufffd"]⟩ := ⟨by decide +kernel, by decide +kernel⟩
  have hother : RegisteredAt {} (Stream.ofBytes illFormedNames.build) ⟨0⟩ 2 ⟨2⟩
      ⟨["GLOBAL", "\ufffd"]⟩ := ⟨by decide +kernel, by decide +kernel⟩
  constructor
  · intro hall
    exact hall illFormedNames.build ⟨0⟩ {} 0 2 _ _ _ _ (.ofRaw [0xFF]) (.ofRaw [0xFE]) hone hother
      (by decide +kernel) (by decide +kernel) (by decide) rfl
  · intro hall
    have hlookup := hall illFormedNames.build ⟨0⟩ {} (.ofRaw [0xFF]) 0 _ _ (by decide +kernel) hone
    revert hlookup
    decide +kernel

theorem names_and_addresses_illFormedNames :
    let opened := (published {} (Stream.ofBytes illFormedNames.build) ⟨0⟩).1
    let catalog := (published {} (Stream.ofBytes illFormedNames.build) ⟨0⟩).2
    opened.findLump? (.ofText "A") = some 3 ∧ opened.findLump? (.ofRaw [0xFF]) = some 0 ∧
      catalog.lookup? ⟨["GLOBAL", "A"]⟩ = some ⟨3⟩ ∧
      LumpName.text (.ofRaw [0xFF]) = LumpName.text (.ofRaw [0xFE]) := by
  intro opened catalog
  have hfind : opened.findLump? (.ofText "A") = some 3 := by decide +kernel
  have hfind' : opened.findLump? (.ofRaw [0xFF]) = some 0 := by decide +kernel
  have hlast : RegisteredAt {} (Stream.ofBytes illFormedNames.build) ⟨0⟩ 3 ⟨3⟩
      ⟨["GLOBAL", "A"]⟩ := ⟨by decide +kernel, by decide +kernel⟩
  have hone : RegisteredAt {} (Stream.ofBytes illFormedNames.build) ⟨0⟩ 0 ⟨0⟩
      ⟨["GLOBAL", "\ufffd"]⟩ := ⟨by decide +kernel, by decide +kernel⟩
  have hother : RegisteredAt {} (Stream.ofBytes illFormedNames.build) ⟨0⟩ 2 ⟨2⟩
      ⟨["GLOBAL", "\ufffd"]⟩ := ⟨by decide +kernel, by decide +kernel⟩
  obtain ⟨-, hapart, hfound⟩ :=
    names_and_addresses {} (Stream.ofBytes illFormedNames.build) ⟨0⟩
  obtain ⟨-, hlookup⟩ := hfound _ 3 ⟨3⟩ _ hfind hlast
  obtain ⟨htext, -, -⟩ := hapart 0 2 _ _ _ (.ofRaw [0xFF]) (.ofRaw [0xFE]) hone hother
    (by decide +kernel) (by decide +kernel) (by decide)
  exact ⟨hfind, hfind', hlookup (by decide), htext⟩

end WadContainer

end WadCatalog
