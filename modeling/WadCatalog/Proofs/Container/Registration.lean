import WadCatalog.Proofs.Catalog.IdMap
import WadCatalog.Proofs.Container.Filing

/-
  What an archive publishes.

  Three passes over a directory have to agree: the one that counts the lumps inside the source, the
  one that files and announces them, and the one that lists them again from the id map.

  1. **Filing** names the lumps inside the source, in order, and each address ends in the name of its
     lump (`lumps_filings`, `last?_addresses`).
  2. **Announcing** asks the registry once for each of those addresses (`register_eq_addAll`).
  3. **Listing** and looking up go by the answers and the lumps side by side (`IdMap.resourceIds_zip`,
     `IdMap.lumpOf?_zip_iff`).
-/

namespace WadCatalog

namespace LumpDirectory

/-! ## Counting -/

/-- As many lumps are counted as there are inside the stream. -/
theorem length_idsWithin (directory : LumpDirectory) (streamSize : Nat) :
    (directory.idsWithin streamSize).length = directory.countWithin streamSize := by
  have hentries : directory.indexed.map (·.1) = directory.entries.toList :=
    List.zipIdx_map_fst 0 _
  rw [← keptIds_indexed, keptIds, List.length_map, ← List.countP_eq_length_filter, countWithin,
    ← hentries, List.countP_map]
  rfl

/-- Every lump is inside the stream or out of bounds. -/
theorem countWithin_add_countP (directory : LumpDirectory) (streamSize : Nat) :
    directory.countWithin streamSize +
      directory.entries.toList.countP (fun entry => !entry.fitsWithin streamSize) =
        directory.length := by
  have hall := List.length_eq_countP_add_countP (fun entry : LumpEntry =>
    entry.fitsWithin streamSize) (l := directory.entries.toList)
  rw [Array.length_toList] at hall
  rw [length, hall, countWithin]
  congr 2
  funext entry
  cases entry.fitsWithin streamSize <;> rfl

end LumpDirectory

namespace ResourcePath

/-- An address with one more segment ends in that segment. -/
@[simp] theorem last?_joinLump (path : ResourcePath) (name : LumpName) :
    (path.joinLump name).last? = some name.text :=
  List.getLast?_concat

end ResourcePath

namespace WadContainer

variable {σ : Type} [ByteSource σ]

/-! ## Filing -/

/-- The lumps that are filed are those inside the source. -/
theorem lumps_filings (context : OpenContext) (container : WadContainer σ) :
    (container.filings context).1.map (·.lump) =
      container.directory.idsWithin (ByteSource.size container.source) := by
  have hlumps := congrArg (List.map Prod.fst) (decisions_filings context container)
  rw [List.map_map, List.map_map] at hlumps
  exact hlumps.trans (List.map_id _)

/-- A filing is made for an entry of the directory. -/
theorem exists_entry_of_mem_filings {context : OpenContext} {container : WadContainer σ}
    {filing : Filing} (hmem : filing ∈ (container.filings context).1) :
    ∃ entry, container.directory.get? filing.lump = some entry ∧
      filing.Follows σ context entry := by
  obtain ⟨entry, hentry, hfollows⟩ := follows_of_mem_fileLumps context container.directory
    container.markers container.directory.indexed .start container.source hmem
  exact ⟨entry, LumpDirectory.get?_of_mem_indexed hentry, hfollows⟩

/-- Wherever a lump is filed, its address ends in its name. -/
theorem Filing.Follows.last?_path {context : OpenContext} {filing : Filing} {entry : LumpEntry}
    (h : filing.Follows σ context entry) : filing.path.last? = some entry.name.text := by
  unfold Filing.Follows at h
  cases hclaimed : filing.claimed with
  | some space =>
    rw [hclaimed] at h
    rw [h.1, ResourcePath.last?_joinLump]
  | none =>
    rw [hclaimed] at h
    obtain ⟨moved, hpath, -⟩ := h
    rw [hpath, ResourcePath.last?_joinLump]

/-- The addresses that the lumps of a container are announced at. -/
def addresses (context : OpenContext) (container : WadContainer σ) : List ResourcePath :=
  (container.filings context).1.map (·.path)

/-- There is one address for each lump inside the source. -/
theorem length_addresses (context : OpenContext) (container : WadContainer σ) :
    (container.addresses context).length =
      (container.directory.idsWithin (ByteSource.size container.source)).length := by
  rw [← lumps_filings context, addresses, List.length_map, List.length_map]

/-- The address at a place ends in the name of the lump at that place. -/
theorem last?_addresses {context : OpenContext} {container : WadContainer σ} {place : Nat}
    {lump : LumpId}
    (hlump : (container.directory.idsWithin (ByteSource.size container.source))[place]? =
      some lump) :
    ∃ path entry, (container.addresses context)[place]? = some path ∧
      container.directory.get? lump = some entry ∧ path.last? = some entry.name.text := by
  rw [← lumps_filings context, List.getElem?_map, Option.map_eq_some_iff] at hlump
  obtain ⟨filing, hfiling, rfl⟩ := hlump
  obtain ⟨entry, hentry, hfollows⟩ :=
    exists_entry_of_mem_filings (List.mem_of_getElem? hfiling)
  refine ⟨filing.path, entry, ?_, hentry, hfollows.last?_path⟩
  rw [addresses, List.getElem?_map, hfiling]
  rfl

/-! ## Announcing -/

section Announcing

variable {ρ : Type} [Registry ρ]

/-- The answers of the registry to a container that registers. -/
def answers (context : OpenContext) (registry : ρ) (container : WadContainer σ) :
    List ResourceId :=
  (Registry.addAll container.id registry (container.addresses context)).1

theorem length_answers (context : OpenContext) (registry : ρ) (container : WadContainer σ) :
    (container.answers context registry).length =
      (container.directory.idsWithin (ByteSource.size container.source)).length := by
  rw [answers, Registry.length_addAll, length_addresses]

/-- **Announcing.**  Registering asks the registry for the addresses, one after another, and records
each answer with its lump. -/
theorem register_eq_addAll (context : OpenContext) (registry : ρ) (container : WadContainer σ)
    (hempty : container.lookup = .empty) :
    (container.register context registry).2.1.lookup =
        IdMap.empty.insertAll ((container.answers context registry).zip
          (container.directory.idsWithin (ByteSource.size container.source))) ∧
      (container.register context registry).2.2 =
        (Registry.addAll container.id registry (container.addresses context)).2 := by
  have hlumps : ((container.filings context).1.map fun filing =>
      (filing.lump, filing.path)).map (·.1) =
        container.directory.idsWithin (ByteSource.size container.source) := by
    rw [List.map_map]
    exact lumps_filings context container
  have hpaths : ((container.filings context).1.map fun filing =>
      (filing.lump, filing.path)).map (·.2) = container.addresses context := by
    rw [List.map_map]
    rfl
  have hannounce := IdMap.announce_eq container.id container.lookup registry
    ((container.filings context).1.map fun filing => (filing.lump, filing.path))
  rw [hlumps, hpaths] at hannounce
  constructor
  · rw [← hempty]
    exact congrArg Prod.fst hannounce
  · exact congrArg Prod.snd hannounce

end Announcing

/-! ## What an archive publishes -/

/-- **What an archive publishes.**  With `within` for the lumps inside the source, in ascending
order, there is one address for each of them, which ends in its name.  Whatever the registry is, it
is asked for exactly these, one after another, by the container's own id.  Then the count, the
listing and the id map tell the same: the listing are the answers in the order they came, each lump
of `within` leads to the answer for it and no other lump leads anywhere, and if no answer came twice
then resources lead back. -/
theorem register_publishes (context : OpenContext) (source : σ) (id : ContainerId) :
    let container := ofSource source id
    let directory := container.directory
    let within := directory.idsWithin (ByteSource.size source)
    ∃ paths : List ResourcePath, paths.length = within.length ∧
      (∀ (place : Nat) (lump : LumpId), within[place]? = some lump →
        ∃ path entry, paths[place]? = some path ∧ directory.get? lump = some entry ∧
          path.last? = some entry.name.text) ∧
      ∀ (ρ : Type) [Registry ρ] (registry : ρ),
        let answers := (Registry.addAll id registry paths).1
        let opened := (container.register context registry).2.1
        (container.register context registry).2.2 = (Registry.addAll id registry paths).2 ∧
          opened.count = within.length ∧
          opened.count + directory.entries.toList.countP
            (fun entry => !entry.fitsWithin (ByteSource.size source)) = directory.length ∧
          opened.resourceIds = answers ∧
          (∀ (place : Nat) (lump : LumpId), within[place]? = some lump →
            ∃ resource, answers[place]? = some resource ∧
              opened.lookup.resourceOf? lump = some resource) ∧
          (∀ lump, lump ∉ within → opened.lookup.resourceOf? lump = none) ∧
          (answers.Nodup → ∀ resource lump, opened.lookup.lumpOf? resource = some lump ↔
            opened.lookup.resourceOf? lump = some resource) := by
  intro container directory within
  -- reading the header and the table does not change the size of the source
  have hwithin : directory.idsWithin (ByteSource.size container.source) = within := by
    rw [size_ofSource]
  have hascending : within.Pairwise (· < ·) := directory.pairwise_idsWithin _
  have hcount : container.count = directory.countWithin (ByteSource.size source) := by
    rw [← size_ofSource source id]
    rfl
  refine ⟨container.addresses context, ?_, ?_, ?_⟩
  · rw [length_addresses, hwithin]
  · intro place lump hlump
    exact last?_addresses (hwithin.symm ▸ hlump)
  · intro ρ _ registry answers opened
    obtain ⟨hlookup, hregistry⟩ := register_eq_addAll context registry container rfl
    have hlength := length_answers context registry container
    rw [hwithin] at hlookup hlength
    refine ⟨hregistry, ?_, ?_, ?_, ?_, ?_, ?_⟩
    · exact hcount.trans (directory.length_idsWithin _).symm
    · have hall := directory.countWithin_add_countP (ByteSource.size source)
      rw [← hcount] at hall
      exact hall
    · exact (congrArg IdMap.resourceIds hlookup).trans (IdMap.resourceIds_zip hlength hascending)
    · intro place lump hlump
      have hplace : place < (container.answers context registry).length := by
        rw [hlength]
        exact (List.getElem?_eq_some_iff.1 hlump).1
      refine ⟨_, List.getElem?_eq_getElem hplace, ?_⟩
      rw [hlookup, IdMap.resourceOf?_zip hlength hascending hlump]
      exact List.getElem?_eq_getElem hplace
    · intro lump hout
      rw [hlookup]
      exact IdMap.resourceOf?_zip_of_not_mem hout
    · intro hanswers resource lump
      rw [hlookup]
      exact IdMap.lumpOf?_zip_iff hlength hascending hanswers

/-- An archive of three lumps, of which the second is truncated. -/
def gappedArchive : Archive.Builder :=
  (Archive.Builder.empty .pwad).addLump "A" [1, 2, 3]
    |>.addRecord "B" 0x7fffffff 1
    |>.addLump "C" [4, 5]

/-- A registry that answers with the larger of two ids first. -/
def swappedRegistry : AliasingCatalog := ⟨.empty, #[⟨7⟩, ⟨3⟩], 0⟩

theorem register_publishes_gapped :
    let opened := ((ofSource (Stream.ofBytes gappedArchive.build) ⟨0⟩).register {}
      swappedRegistry).2.1
    opened.count = 2 ∧ opened.resourceIds = [⟨7⟩, ⟨3⟩] ∧
      opened.lookup.resourceOf? 2 = some ⟨3⟩ ∧ opened.lookup.resourceOf? 1 = none ∧
      opened.lookup.lumpOf? ⟨3⟩ = some 2 := by
  intro opened
  have hwithin : (ofSource (Stream.ofBytes gappedArchive.build) ⟨0⟩).directory.idsWithin
      (ByteSource.size (Stream.ofBytes gappedArchive.build)) = [0, 2] := by
    decide +kernel
  have hlisted : opened.resourceIds = [⟨7⟩, ⟨3⟩] := by decide +kernel
  obtain ⟨paths, hlength, hends, hall⟩ :=
    register_publishes {} (Stream.ofBytes gappedArchive.build) ⟨0⟩
  obtain ⟨-, hcount, -, hids, hlump, hother, hback⟩ := hall AliasingCatalog swappedRegistry
  rw [hwithin] at hcount hlump hother
  have hanswers := hids.symm.trans hlisted
  rw [hanswers] at hlump hback
  obtain ⟨resource, hresource, hthree⟩ := hlump 1 2 rfl
  cases hresource
  exact ⟨hcount, hlisted, hthree, hother 1 (by decide), (hback (by decide) _ _).2 hthree⟩

end WadContainer

end WadCatalog
