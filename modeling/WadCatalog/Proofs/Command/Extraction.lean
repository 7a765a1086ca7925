import WadCatalog.Command.Run
import WadCatalog.Proofs.Catalog.Entries
import WadCatalog.Proofs.Container.Addresses
import WadCatalog.Proofs.Container.Reads

/-
  Extracting what was listed.

  A listing prints the address of each resource, and extraction reads an address back.  It looks for
  the very address first and then for one that reads the same in any case.

  1. **Both searches find the same** (`lookup?_or_findIgnoringCase`): the last resource that is
     printed as the wanted address is in upper case.  Where the first search finds something, the
     address is one that an archive announces, and no other of those has its text.
  2. **What is found has bytes** (`exists_isPublished`).  An archive that was opened into a fresh
     catalog serves every entry of it from a lump of that name.
  3. **What is wanted** is the text of the row, as long as it has no empty segment.  Empty segments
     are dropped, so a resource that is printed with one cannot be asked for by that text.
-/

namespace WadCatalog

namespace Catalog

/-! ## Searching -/

/-- The last resource whose address has the given text. -/
def lastPrinted? (catalog : Catalog) (text : String) : Option CatalogEntry :=
  (catalog.entries.toList.filter (·.path.text = text)).getLast?

theorem mem_of_lastPrinted? {catalog : Catalog} {text : String} {entry : CatalogEntry}
    (h : catalog.lastPrinted? text = some entry) :
    entry ∈ catalog.entries.toList ∧ entry.path.text = text := by
  obtain ⟨hmem, htext⟩ := List.mem_filter.1 (List.mem_of_getLast? h)
  exact ⟨hmem, of_decide_eq_true htext⟩

/-- A text that some resource is printed with is that of a last one. -/
theorem exists_lastPrinted? {catalog : Catalog} {entry : CatalogEntry}
    (h : entry ∈ catalog.entries.toList) :
    ∃ last, catalog.lastPrinted? entry.path.text = some last := by
  cases hlast : catalog.lastPrinted? entry.path.text with
  | some last => exact ⟨last, rfl⟩
  | none =>
    have hmem : entry ∈ catalog.entries.toList.filter (·.path.text = entry.path.text) :=
      List.mem_filter.2 ⟨h, decide_eq_true rfl⟩
    rw [List.getLast?_eq_none_iff.1 hlast] at hmem
    cases hmem

section Searching

variable {catalog : Catalog} (hfiled : ∀ entry ∈ catalog.entries.toList, entry.path.IsFiled)
include hfiled

/-- Looking for an address in any case is looking for its text in upper case. -/
theorem findIgnoringCase_eq (wanted : ResourcePath) :
    Command.findIgnoringCase catalog wanted =
      (catalog.lastPrinted? (Ascii.upper wanted.text)).map (·.id) := by
  have hsame : ∀ entry ∈ catalog.entries.toList,
      Ascii.equalIgnoringCase entry.path.text wanted.text =
        decide (entry.path.text = Ascii.upper wanted.text) := by
    intro entry hentry
    have hupper := (hfiled entry hentry).upper_text
    have hchars := congrArg String.toList hupper
    rw [Ascii.upper, String.toList_ofList] at hchars
    rw [Ascii.equalIgnoringCase, hchars, Bool.eq_iff_iff, beq_iff_eq, decide_eq_true_iff,
      ← String.toList_inj, Ascii.upper, String.toList_ofList]
  rw [Command.findIgnoringCase, ← List.head?_filter, List.filter_reverse, List.head?_reverse,
    List.filter_congr hsame]
  rfl

/-- **Both searches find the same.**  Looking for an address of clean segments, and then for one that
reads like it in any case, gives the last resource that is printed as the address in upper case. -/
theorem lookup?_or_findIgnoringCase (hconsistent : catalog.IsConsistent) {wanted : ResourcePath}
    (hclean : ∀ segment ∈ wanted.segments, ResourcePath.IsClean segment) :
    (catalog.lookup? wanted).or (Command.findIgnoringCase catalog wanted) =
      (catalog.lastPrinted? (Ascii.upper wanted.text)).map (·.id) := by
  rw [findIgnoringCase_eq hfiled, hconsistent.lookup?_eq]
  by_cases hany : ∃ entry ∈ catalog.entries.toList, entry.path = wanted
  · -- the address is one of the archive's, and no other of these has its text
    obtain ⟨found, hfound, rfl⟩ := hany
    have hsame : ∀ entry ∈ catalog.entries.toList, decide (entry.path = found.path) =
        decide (entry.path.text = Ascii.upper found.path.text) := by
      intro entry hentry
      rw [(hfiled found hfound).upper_text, decide_eq_decide]
      constructor
      · intro hpath
        rw [hpath]
      · exact (hfiled entry hentry).eq_of_text_eq (hfiled found hfound) hclean
    rw [List.filter_congr hsame]
    exact Option.or_self
  · have hnone : catalog.entries.toList.filter (·.path = wanted) = [] := by
      rw [List.filter_eq_nil_iff]
      intro entry hentry hpath
      exact hany ⟨entry, hentry, of_decide_eq_true hpath⟩
    rw [hnone]
    rfl

end Searching

end Catalog

namespace WadContainer

/-! ## What is found -/

/-- That an archive over some bytes is what a catalog knows of: each entry is its own, has an address
in a namespace, and leads to a lump of that name inside the bytes. -/
structure IsPublished (bytes : Bytes) (archive : WadContainer AnySource) (catalog : Catalog) :
    Prop where
  serves : archive.Serves bytes
  consistent : catalog.IsConsistent
  filed : ∀ entry ∈ catalog.entries.toList, entry.path.IsFiled
  lump : ∀ entry ∈ catalog.entries.toList, ∃ lump found,
    archive.lookup.lumpOf? entry.id = some lump ∧ archive.directory.get? lump = some found ∧
      found.fitsWithin bytes.length = true ∧ entry.path.last? = some found.name.text

/-- An entry that an archive makes in a catalog leads to the lump it was announced for. -/
theorem exists_lump_of_mem_entriesFrom {bytes : Bytes} {container : WadContainer AnySource}
    {catalog : Catalog} {context : OpenContext} (hempty : container.lookup = .empty)
    (hserves : (container.register context catalog).2.1.Serves bytes) {entry : CatalogEntry}
    (hentry : entry ∈ Catalog.entriesFrom container.id catalog.length
      (container.addresses context)) :
    ∃ lump found, (container.register context catalog).2.1.lookup.lumpOf? entry.id = some lump ∧
      (container.register context catalog).2.1.directory.get? lump = some found ∧
      found.fitsWithin bytes.length = true ∧ entry.path.last? = some found.name.text := by
  obtain ⟨hmap, -⟩ := register_eq_addAll context catalog container hempty
  have hlength := container.length_answers context catalog
  have hascending := container.directory.pairwise_idsWithin (ByteSource.size container.source)
  have hnodup : (container.answers context catalog).Nodup := Catalog.nodup_answers _ _ _
  -- the entry, its answer and its lump stand at the same place
  obtain ⟨place, hplace⟩ := List.mem_iff_getElem?.1 hentry
  have hanswer : (container.answers context catalog)[place]? = some entry.id := by
    rw [answers, Catalog.answers_addAll, List.getElem?_map, hplace]
    rfl
  have hbound : place <
      (container.directory.idsWithin (ByteSource.size container.source)).length := by
    rw [← hlength]
    exact (List.getElem?_eq_some_iff.1 hanswer).1
  obtain ⟨lump, hwithin⟩ : ∃ lump,
      (container.directory.idsWithin (ByteSource.size container.source))[place]? = some lump :=
    ⟨_, List.getElem?_eq_getElem hbound⟩
  obtain ⟨path, found, hpath, hfound, hlast⟩ := last?_addresses hwithin
  have hleads : (container.register context catalog).2.1.lookup.lumpOf? entry.id = some lump := by
    rw [hmap, IdMap.lumpOf?_zip_iff hlength hascending hnodup,
      IdMap.resourceOf?_zip hlength hascending hwithin]
    exact hanswer
  obtain ⟨inside, hinside, hfits⟩ := hserves.inside entry.id lump hleads
  have hsame : inside = found := Option.some.inj (hinside.symm.trans hfound)
  refine ⟨lump, found, hleads, hfound, hsame ▸ hfits, ?_⟩
  rw [Catalog.getElem?_entriesFrom, hpath] at hplace
  rw [← Option.some.inj hplace]
  exact hlast

end WadContainer

namespace Command

variable {disk : Disk} {path : FilePath}

/-- What starts like an archive can be opened. -/
theorem exists_openFile (hkind : ContainerKind.detect disk path = .wad) :
    ∃ file content, disk.openFile path = .ok (file, content) := by
  cases hopen : disk.openFile path with
  | ok found => exact ⟨found.1, found.2, rfl⟩
  | error cause =>
    unfold ContainerKind.detect at hkind
    rw [hopen] at hkind
    split at hkind
    · cases hkind
    · cases hkind

/-- An archive on a disk that is opened into a fresh catalog is what the catalog knows of. -/
theorem exists_isPublished (hkind : ContainerKind.detect disk path = .wad) (config : Config)
    {file : NodeId} {content : Content} (hopen : disk.openFile path = .ok (file, content)) :
    ∃ archive, (openFresh disk config path).1 = .wad archive ∧
      WadContainer.IsPublished content.bytes archive (openFresh disk config path).2 := by
  let catalog : Catalog := Catalog.empty.allocateContainerId.2
  let container : WadContainer AnySource :=
    { WadContainer.ofSource (AnySource.stream (.openFile disk path)) ⟨0⟩ with path := some path }
  let registered := (container.register { config } catalog).2
  have hfresh : openFresh disk config path = (.wad registered.1, registered.2) := by
    unfold openFresh
    simp only [Container.openAt, hkind]
    rfl
  have hserves : registered.1.Serves content.bytes := by
    obtain ⟨first, hfirst, hserves⟩ :=
      (Container.OpenedOver.file { config } catalog ⟨0⟩ hopen rfl).exists_serves
    cases hfirst
    exact hserves
  have hregistry : registered.2 = (Registry.addAll ⟨0⟩ catalog (container.addresses _)).2 :=
    (WadContainer.register_eq_addAll { config } catalog container rfl).2
  have hentries : registered.2.entries.toList =
      Catalog.entriesFrom ⟨0⟩ 0 (container.addresses { config }) := by
    rw [hregistry, Catalog.entries_addAll]
    rfl
  have hconsistent : catalog.IsConsistent := Catalog.isConsistent_empty.allocateContainerId
  rw [hfresh]
  refine ⟨registered.1, rfl, hserves, ?_, ?_, ?_⟩
  · rw [hregistry]
    exact Catalog.isConsistent_addAll hconsistent _ _
  · intro entry hentry
    rw [hentries] at hentry
    obtain ⟨place, hplace⟩ := List.mem_iff_getElem?.1 hentry
    rw [Catalog.getElem?_entriesFrom] at hplace
    obtain ⟨address, haddress, rfl⟩ := Option.map_eq_some_iff.1 hplace
    exact WadContainer.isFiled_of_mem_addresses rfl (List.mem_of_getElem? haddress)
  · intro entry hentry
    rw [hentries] at hentry
    exact WadContainer.exists_lump_of_mem_entriesFrom rfl hserves hentry

/-! ## What is listed -/

/-- A row is printed for an entry. -/
theorem exists_entry_of_mem_resourceRows {checksums : Bool} {container : Container}
    {entries : List CatalogEntry} {row : Row}
    (h : row ∈ resourceRows disk checksums container entries) :
    ∃ entry ∈ entries, row.path = entry.path.text := by
  induction entries generalizing container with
  | nil => cases h
  | cons entry rest ih =>
    unfold resourceRows at h
    cases checksums with
    | true =>
      rcases List.mem_cons.1 h with rfl | hrest
      · exact ⟨entry, List.mem_cons_self, rfl⟩
      · obtain ⟨other, hother, hpath⟩ := ih hrest
        exact ⟨other, List.mem_cons_of_mem _ hother, hpath⟩
    | false =>
      rcases List.mem_cons.1 h with rfl | hrest
      · exact ⟨entry, List.mem_cons_self, rfl⟩
      · obtain ⟨other, hother, hpath⟩ := ih hrest
        exact ⟨other, List.mem_cons_of_mem _ hother, hpath⟩

theorem exists_entry_of_mem_list {config : Config} {checksums : Bool} {row : Row}
    (h : row ∈ list disk config path checksums) :
    ∃ entry ∈ (openFresh disk config path).2.entries.toList, row.path = entry.path.text := by
  obtain ⟨entry, hentry, hpath⟩ := exists_entry_of_mem_resourceRows h
  exact ⟨entry, (List.mem_filter.1 hentry).1, hpath⟩

/-! ## What is extracted -/

/-- **One search.**  Extraction gives the bytes of the last resource that is printed as the wanted
address is in upper case, or fails if there is none. -/
theorem extract_eq {bytes : Bytes} {archive : WadContainer AnySource} {config : Config}
    (hopened : (openFresh disk config path).1 = .wad archive)
    (hpublished : archive.IsPublished bytes (openFresh disk config path).2) (resource : String) :
    extract disk config path resource =
      match (openFresh disk config path).2.lastPrinted?
        (Ascii.upper (ResourcePath.parse resource).text) with
      | some entry => .ok (archive.load entry.id (archive.sizeOf entry.id)).1
      | none => .error (.invalidPath (ResourcePath.parse resource)) := by
  have hclean : ∀ segment ∈ (ResourcePath.parse resource).segments,
      ResourcePath.IsClean segment := fun _ => ResourcePath.isClean_of_mem_parse
  have hfound := Catalog.lookup?_or_findIgnoringCase hpublished.filed hpublished.consistent hclean
  unfold extract
  simp only
  rw [hfound, hopened]
  cases (openFresh disk config path).2.lastPrinted?
    (Ascii.upper (ResourcePath.parse resource).text) with
  | some entry => rfl
  | none => rfl

/-- That a text extracts an entry of the archive at a path: the lump it leads to has its name and
lies inside the file, and all of its range there comes out. -/
def Extracts (disk : Disk) (config : Config) (path : FilePath) (resource : String)
    (entry : CatalogEntry) : Prop :=
  ∃ file content archive lump found, disk.openFile path = .ok (file, content) ∧
    (openFresh disk config path).1 = .wad archive ∧
    archive.lookup.lumpOf? entry.id = some lump ∧ archive.directory.get? lump = some found ∧
    found.fitsWithin content.bytes.length = true ∧ entry.path.last? = some found.name.text ∧
    extract disk config path resource = .ok (content.bytes.slice found.position found.size)

/-- A text that is read as an address extracts the last resource that is printed as it. -/
theorem extracts_of_lastPrinted? (hkind : ContainerKind.detect disk path = .wad) (config : Config)
    {resource : String} {last : CatalogEntry}
    (hlast : (openFresh disk config path).2.lastPrinted?
      (Ascii.upper (ResourcePath.parse resource).text) = some last) :
    Extracts disk config path resource last := by
  obtain ⟨file, content, hopen⟩ := exists_openFile hkind
  obtain ⟨archive, harchive, hpublished⟩ := exists_isPublished hkind config hopen
  obtain ⟨lump, found, hlump, hfound, hfits, hname⟩ :=
    hpublished.lump last (Catalog.mem_of_lastPrinted? hlast).1
  refine ⟨file, content, archive, lump, found, hopen, harchive, hlump, hfound, hfits, hname, ?_⟩
  have hsteady := hpublished.serves.source
  rw [extract_eq harchive hpublished, hlast]
  show Except.ok (archive.load last.id (archive.sizeOf last.id)).1 = _
  rw [WadContainer.load_eq_slice hsteady hlump hfound hfits,
    WadContainer.sizeOf_eq hsteady hlump hfound hfits, Nat.min_self]

/-- If no resource is printed as the address, nothing is extracted. -/
theorem extract_of_lastPrinted?_eq_none (hkind : ContainerKind.detect disk path = .wad)
    (config : Config) {resource : String}
    (hnone : (openFresh disk config path).2.lastPrinted?
      (Ascii.upper (ResourcePath.parse resource).text) = none) :
    extract disk config path resource =
      .error (.invalidPath (ResourcePath.parse resource)) := by
  obtain ⟨file, content, hopen⟩ := exists_openFile hkind
  obtain ⟨archive, harchive, hpublished⟩ := exists_isPublished hkind config hopen
  rw [extract_eq harchive hpublished, hnone]

/-- The text of a row starts at the root and is in upper case. -/
theorem text_of_mem_list (hkind : ContainerKind.detect disk path = .wad) {config : Config}
    {checksums : Bool} {row : Row} (hrow : row ∈ list disk config path checksums) :
    row.path.toList.head? = some ResourcePath.delimiter ∧ Ascii.upper row.path = row.path := by
  obtain ⟨file, content, hopen⟩ := exists_openFile hkind
  obtain ⟨archive, -, hpublished⟩ := exists_isPublished hkind config hopen
  obtain ⟨entry, hentry, hpath⟩ := exists_entry_of_mem_list hrow
  have hfiled := hpublished.filed entry hentry
  rw [hpath]
  exact ⟨hfiled.head?_text, hfiled.upper_text⟩

/-- **Extracting what was listed.**  A row of an archive's listing, if its text has no empty segment,
is extracted by its text: that gives all bytes of the last resource that is printed so.  A text with
an empty segment is read without it, so it gives the bytes of the last resource that is printed as
the rest, and fails if there is none. -/
theorem extract_listed (hkind : ContainerKind.detect disk path = .wad) (config : Config)
    (checksums : Bool) :
    ∀ row ∈ list disk config path checksums,
      let catalog := (openFresh disk config path).2
      let wanted := ResourcePath.parse row.path
      (¬ ResourcePath.HasEmptySegment row.path →
        ∃ last, catalog.lastPrinted? row.path = some last ∧
          Extracts disk config path row.path last) ∧
      (ResourcePath.HasEmptySegment row.path →
        (∀ last, catalog.lastPrinted? wanted.text = some last →
          Extracts disk config path row.path last) ∧
        (catalog.lastPrinted? wanted.text = none →
          extract disk config path row.path = .error (.invalidPath wanted))) := by
  intro row hrow catalog wanted
  obtain ⟨hroot, hupper⟩ := text_of_mem_list hkind hrow
  have hwanted : Ascii.upper wanted.text = wanted.text :=
    ResourcePath.upper_text (ResourcePath.upper_segments_parse hupper)
  constructor
  · intro hempty
    have htext : wanted.text = row.path := ResourcePath.text_parse_of_root hroot hempty
    obtain ⟨entry, hentry, hpath⟩ := exists_entry_of_mem_list hrow
    obtain ⟨last, hlast⟩ := Catalog.exists_lastPrinted? hentry
    rw [← hpath] at hlast
    refine ⟨last, hlast, extracts_of_lastPrinted? hkind config ?_⟩
    rw [hwanted, htext]
    exact hlast
  · intro _
    constructor
    · intro last hlast
      exact extracts_of_lastPrinted? hkind config (hwanted.symm ▸ hlast)
    · intro hnone
      exact extract_of_lastPrinted?_eq_none hkind config (hwanted.symm ▸ hnone)

/-- An archive of three lumps.  The name of the second starts with a `/`, and the third has none. -/
def slashArchive : Archive.Builder :=
  (Archive.Builder.empty .pwad).addLump "A" [1] |>.addLump "/A" [2] |>.addLump "" [3]

/-- Where that archive is on a disk. -/
def slashPath : FilePath := .ofText "a.wad"

/-- A disk with that archive. -/
def slashDisk : Disk :=
  ⟨#[.directory ((∅ : Std.TreeMap Bytes NodeId).insert slashPath.bytes 1),
    .file (.ofBytes slashArchive.build)], Disk.root⟩

/-- Not every row is extracted by its text: a resource without a name is printed with a `/` at the
end, which nothing is found by. -/
theorem not_extracts_listed :
    ¬ ∀ (disk : Disk) (path : FilePath) (config : Config) (checksums : Bool),
      ContainerKind.detect disk path = .wad → ∀ row ∈ list disk config path checksums,
        ∃ last, (openFresh disk config path).2.lastPrinted? row.path = some last ∧
          Extracts disk config path row.path last := by
  intro hall
  have hrows : list slashDisk {} slashPath false =
      [⟨0, 1, "/GLOBAL/A", none⟩, ⟨1, 1, "/GLOBAL//A", none⟩, ⟨2, 1, "/GLOBAL/", none⟩] := by
    decide +kernel
  have hfails : (extract slashDisk {} slashPath "/GLOBAL/").isOk = false := by decide +kernel
  obtain ⟨last, -, hextracts⟩ := hall slashDisk slashPath {} false (by decide +kernel)
    ⟨2, 1, "/GLOBAL/", none⟩ (by rw [hrows]; decide)
  obtain ⟨_, _, _, _, _, _, _, _, _, _, _, hextract⟩ := hextracts
  rw [hextract] at hfails
  cases hfails

theorem extract_listed_slash :
    ContainerKind.detect slashDisk slashPath = .wad ∧
      (∃ last, last.path.text = "/GLOBAL/A" ∧ Extracts slashDisk {} slashPath "/GLOBAL/A" last ∧
        Extracts slashDisk {} slashPath "/GLOBAL//A" last) ∧
      extract slashDisk {} slashPath "/GLOBAL/" = .error (.invalidPath ⟨["GLOBAL"]⟩) := by
  have hkind : ContainerKind.detect slashDisk slashPath = .wad := by decide +kernel
  have hrows : list slashDisk {} slashPath false =
      [⟨0, 1, "/GLOBAL/A", none⟩, ⟨1, 1, "/GLOBAL//A", none⟩, ⟨2, 1, "/GLOBAL/", none⟩] := by
    decide +kernel
  have hdropped : (openFresh slashDisk {} slashPath).2.lastPrinted? "/GLOBAL" = none := by
    decide +kernel
  have hall := extract_listed hkind {} false
  rw [hrows] at hall
  obtain ⟨hplain, -⟩ := hall ⟨0, 1, "/GLOBAL/A", none⟩ (by decide)
  obtain ⟨-, hdoubled⟩ := hall ⟨1, 1, "/GLOBAL//A", none⟩ (by decide)
  obtain ⟨-, hnameless⟩ := hall ⟨2, 1, "/GLOBAL/", none⟩ (by decide)
  obtain ⟨last, hlast, hextracts⟩ := hplain (by decide)
  have htext := (Catalog.mem_of_lastPrinted? hlast).2
  refine ⟨hkind, ⟨last, htext, hextracts, (hdoubled (by decide)).1 last hlast⟩, ?_⟩
  exact (hnameless (by decide)).2 hdropped

end Command

end WadCatalog
