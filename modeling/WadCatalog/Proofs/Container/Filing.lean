import WadCatalog.Archive.Builder
import WadCatalog.ByteSource.Stream
import WadCatalog.Container.Wad
import WadCatalog.Proofs.ByteSource.Delivery
import WadCatalog.Proofs.Placement.MapGroups

/-
  Where the lumps of an archive are filed, and what truncated lumps have to do with it.

  Registration passes over the lumps that do not lie inside the source, and the placer never sees
  them.  So the question is when it answers for the others as it would if it saw all.

  1. **The filings are the answers of a placer** (`decisions_fileLumps`).  The induction is on the
     lumps still to come; the cursor moves with every lump that is classified, but the size of the
     source, which decides what is passed over, stays (`ByteSource.IsKept.identify`).
  2. **They are the verdicts over the lumps inside the source** (`decisions_filings`), by what is
     known of placers that see ascending lumps.
  3. **One lump makes the difference** (`claimed_of_decider`): the last lump without map data up to
     the one that is filed.  If it is inside the source, or if there is none, the answer is the same.
     If it is truncated, the map it starts is lost.
-/

namespace WadCatalog

namespace LumpDirectory

/-! ## The lumps inside a stream -/

/-- The ids of the lumps that lie inside a stream, in ascending order. -/
def idsWithin (directory : LumpDirectory) (streamSize : Nat) : List LumpId :=
  directory.ids.filter fun id => (directory.get? id).any (·.fitsWithin streamSize)

theorem mem_idsWithin {directory : LumpDirectory} {streamSize : Nat} {id : LumpId} :
    id ∈ directory.idsWithin streamSize ↔
      ∃ entry, directory.get? id = some entry ∧ entry.fitsWithin streamSize = true := by
  rw [idsWithin, List.mem_filter]
  constructor
  · rintro ⟨-, hfits⟩
    exact (Option.any_eq_true _ _).1 hfits
  · rintro ⟨entry, hentry, hfits⟩
    obtain ⟨hid, -⟩ := Array.getElem?_eq_some_iff.1 hentry
    exact ⟨List.mem_range.2 hid, (Option.any_eq_true _ _).2 ⟨entry, hentry, hfits⟩⟩

theorem pairwise_idsWithin (directory : LumpDirectory) (streamSize : Nat) :
    (directory.idsWithin streamSize).Pairwise (· < ·) :=
  (Placer.pairwise_ids directory).filter _

/-- The lump that decides which map a lump is in: the last one up to it that holds no map data. -/
def decider? (directory : LumpDirectory) (id : LumpId) : Option LumpId :=
  Placer.lastApart? directory (directory.ids.filter (· ≤ id))

/-- An entry comes with the id that it has in the directory. -/
theorem get?_of_mem_indexed {directory : LumpDirectory} {entry : LumpEntry} {id : LumpId}
    (h : (entry, id) ∈ directory.indexed) : directory.get? id = some entry := by
  have hentry := List.mem_zipIdx_iff_getElem?.1 h
  rw [Array.getElem?_toList] at hentry
  exact hentry

/-- The ids of those of some entries that lie inside a stream. -/
def keptIds (streamSize : Nat) (lumps : List (LumpEntry × LumpId)) : List LumpId :=
  (lumps.filter (·.1.fitsWithin streamSize)).map (·.2)

theorem keptIds_cons_of_pos {streamSize : Nat} {entry : LumpEntry}
    (h : entry.fitsWithin streamSize = true) (id : LumpId) (rest : List (LumpEntry × LumpId)) :
    keptIds streamSize ((entry, id) :: rest) = id :: keptIds streamSize rest := by
  simp [keptIds, h]

theorem keptIds_cons_of_neg {streamSize : Nat} {entry : LumpEntry}
    (h : ¬ entry.fitsWithin streamSize = true) (id : LumpId)
    (rest : List (LumpEntry × LumpId)) :
    keptIds streamSize ((entry, id) :: rest) = keptIds streamSize rest := by
  simp [keptIds, h]

/-- Going through the table finds the lumps that lie inside a stream. -/
theorem keptIds_indexed (directory : LumpDirectory) (streamSize : Nat) :
    keptIds streamSize directory.indexed = directory.idsWithin streamSize := by
  have hids : directory.ids = directory.indexed.map (·.2) := by
    rw [indexed, List.zipIdx_map_snd, ids, length, List.range_eq_range', Array.length_toList]
  rw [keptIds, idsWithin, hids, List.filter_map]
  congr 1
  apply List.filter_congr
  rintro ⟨entry, id⟩ hmem
  show entry.fitsWithin streamSize = (directory.get? id).any (·.fitsWithin streamSize)
  rw [get?_of_mem_indexed hmem, Option.any_some]

end LumpDirectory

variable {σ : Type} [ByteSource σ]

/-! ## What opening an archive keeps -/

/-- What reading and seeking keep is kept when an archive is read. -/
theorem ByteSource.IsKept.readDirectory {P : σ → Prop} (hkept : ByteSource.IsKept P) {source : σ}
    (h : P source) : P (WadContainer.readDirectory source).2 := by
  have hfront := hkept.readAt h 0 Archive.Header.width
  unfold WadContainer.readDirectory
  split
  · simp only
    split
    · exact hfront
    next header hheader =>
      have htable := hkept.readAt hfront header.tableStart header.tableLength
      split
      · exact hfront
      · split
        · exact htable
        · exact htable
  · exact h

/-- What reading and seeking keep is kept when a lump is shown to the classifier. -/
theorem ByteSource.IsKept.identify {P : σ → Prop} (hkept : ByteSource.IsKept P) {source : σ}
    (h : P source) (context : OpenContext) (entry : LumpEntry) :
    P (WadContainer.identify context source entry).2.2 := by
  have hseek := hkept.seek source entry.position h
  unfold WadContainer.identify
  split
  · split
    next moved heq =>
      rw [heq] at hseek
      exact hseek
    next moved heq =>
      rw [heq] at hseek
      simp only
      split
      · exact hkept.read _ _ hseek
      · exact hkept.read _ _ hseek
  · exact h

/-- What reading and seeking keep is kept when lumps are filed. -/
theorem ByteSource.IsKept.fileLumps {P : σ → Prop} (hkept : ByteSource.IsKept P)
    (context : OpenContext) (directory : LumpDirectory) (markers : MarkerTable)
    (lumps : List (LumpEntry × LumpId)) (placer : Placer) {source : σ} (h : P source) :
    P (WadContainer.fileLumps context directory markers placer source lumps).2 := by
  induction lumps generalizing placer source with
  | nil => exact h
  | cons lump rest ih =>
    obtain ⟨entry, id⟩ := lump
    by_cases hfits : entry.fitsWithin (ByteSource.size source) = true
    · simp only [WadContainer.fileLumps, if_pos hfits]
      cases (placer.place directory markers id).1 with
      | some space => exact ih _ h
      | none => exact ih _ (hkept.identify h context entry)
    · simp only [WadContainer.fileLumps, if_neg hfits]
      exact ih placer h

namespace WadContainer

/-! ## Filing as placing -/

/-- What a filing says about the maps and the markers around a lump. -/
def Filing.decision (filing : Filing) : LumpId × Option Namespace := (filing.lump, filing.claimed)

/-- That a filing does what it says: a lump that is claimed is filed in the namespace that claims
it, and any other is filed where the classifier wants it. -/
def Filing.Follows (σ : Type) [ByteSource σ] (context : OpenContext) (filing : Filing)
    (entry : LumpEntry) : Prop :=
  match filing.claimed with
  | some space => filing.path = space.path.joinLump entry.name ∧ filing.examined = none
  | none => ∃ moved : σ, filing.path = (identify context moved entry).1.joinLump entry.name ∧
      filing.examined = (identify context moved entry).2.1

/-- That a filing does what it says, with the source as it was when the lump was filed. -/
def Filing.FollowsFrom (context : OpenContext) (source : σ) (filing : Filing)
    (entry : LumpEntry) : Prop :=
  match filing.claimed with
  | some space => filing.path = space.path.joinLump entry.name ∧ filing.examined = none
  | none => filing.path = (identify context source entry).1.joinLump entry.name ∧
      filing.examined = (identify context source entry).2.1

/-- What a filing says of the source as it was, it says of some source. -/
theorem Filing.FollowsFrom.follows {context : OpenContext} {source : σ} {filing : Filing}
    {entry : LumpEntry} (h : filing.FollowsFrom context source entry) :
    filing.Follows σ context entry := by
  unfold FollowsFrom at h
  unfold Follows
  cases hclaimed : filing.claimed with
  | some space =>
    rw [hclaimed] at h
    exact h
  | none =>
    rw [hclaimed] at h
    exact ⟨source, h⟩

/-- **The filings are the answers of a placer** that is shown the lumps inside the source. -/
theorem decisions_fileLumps (context : OpenContext) (directory : LumpDirectory)
    (markers : MarkerTable) (streamSize : Nat) (lumps : List (LumpEntry × LumpId))
    (placer : Placer) (source : σ) (hsize : ByteSource.size source = streamSize) :
    (fileLumps context directory markers placer source lumps).1.map Filing.decision =
      (LumpDirectory.keptIds streamSize lumps).zip
        (Placer.placeAll directory markers placer
          (LumpDirectory.keptIds streamSize lumps)) := by
  induction lumps generalizing placer source with
  | nil => rfl
  | cons lump rest ih =>
    obtain ⟨entry, id⟩ := lump
    by_cases hfits : entry.fitsWithin streamSize = true
    · rw [LumpDirectory.keptIds_cons_of_pos hfits]
      simp only [fileLumps, hsize, if_pos hfits, List.map_cons, Placer.placeAll, List.zip_cons_cons]
      congr 1
      -- only a lump that nothing claims is read, and that does not change the size
      cases hspace : (placer.place directory markers id).1 with
      | some space => exact ih _ source hsize
      | none =>
        have hmoved := (ByteSource.isKept_size streamSize).identify hsize context entry
        exact ih _ _ hmoved
    · rw [LumpDirectory.keptIds_cons_of_neg hfits]
      simp only [fileLumps, hsize, if_neg hfits]
      exact ih placer source hsize

/-- Every filing is made for one of the lumps, with the source as the lumps in front of that one left
it. -/
theorem followsFrom_of_mem_fileLumps (context : OpenContext) (directory : LumpDirectory)
    (markers : MarkerTable) (lumps : List (LumpEntry × LumpId)) (placer : Placer) (source : σ)
    {filing : Filing}
    (hmem : filing ∈ (fileLumps context directory markers placer source lumps).1) :
    ∃ front entry back, lumps = front ++ (entry, filing.lump) :: back ∧
      entry.fitsWithin (ByteSource.size source) = true ∧
      filing.FollowsFrom context
        (fileLumps context directory markers placer source front).2 entry := by
  -- the lumps in front are kept by name, since they move the source before the turn of this one
  induction lumps generalizing placer source with
  | nil => cases hmem
  | cons lump rest ih =>
    obtain ⟨entry, id⟩ := lump
    by_cases hfits : entry.fitsWithin (ByteSource.size source) = true
    · simp only [fileLumps, if_pos hfits] at hmem
      rcases List.mem_cons.1 hmem with rfl | hrest
      · refine ⟨[], entry, rest, rfl, hfits, ?_⟩
        unfold Filing.FollowsFrom
        cases (placer.place directory markers id).1 with
        | some space => exact ⟨rfl, rfl⟩
        | none => exact ⟨rfl, rfl⟩
      · obtain ⟨front, other, back, rfl, hother, hfollows⟩ := ih _ _ hrest
        refine ⟨(entry, id) :: front, other, back, rfl, ?_, ?_⟩
        · -- reading a lump does not change the size of the source
          revert hother
          cases (placer.place directory markers id).1 with
          | some space => exact fun hother => hother
          | none =>
            have hsize := (ByteSource.isKept_size (ByteSource.size source)).identify rfl
              context entry
            intro hother
            rw [← hsize]
            exact hother
        · simp only [fileLumps, if_pos hfits]
          exact hfollows
    · simp only [fileLumps, if_neg hfits] at hmem
      obtain ⟨front, other, back, rfl, hother, hfollows⟩ := ih placer source hmem
      refine ⟨(entry, id) :: front, other, back, rfl, hother, ?_⟩
      simp only [fileLumps, if_neg hfits]
      exact hfollows

/-- Every filing is made for one of the lumps, and does what it says. -/
theorem follows_of_mem_fileLumps (context : OpenContext) (directory : LumpDirectory)
    (markers : MarkerTable) (lumps : List (LumpEntry × LumpId)) (placer : Placer) (source : σ)
    {filing : Filing}
    (hmem : filing ∈ (fileLumps context directory markers placer source lumps).1) :
    ∃ entry, (entry, filing.lump) ∈ lumps ∧ filing.Follows σ context entry := by
  obtain ⟨front, entry, back, hlumps, -, hfollows⟩ :=
    followsFrom_of_mem_fileLumps context directory markers lumps placer source hmem
  refine ⟨entry, ?_, hfollows.follows⟩
  rw [hlumps]
  exact List.mem_append_right _ List.mem_cons_self

/-- **The filings are verdicts.**  There is one for each lump inside the source, in order, and it is
the verdict over the lumps inside the source. -/
theorem decisions_filings (context : OpenContext) (container : WadContainer σ) :
    (container.filings context).1.map Filing.decision =
      (container.directory.idsWithin (ByteSource.size container.source)).map fun id =>
        (id, Placer.verdict container.directory container.markers
          (container.directory.idsWithin (ByteSource.size container.source)) id) := by
  have hids : ∀ id ∈ container.directory.idsWithin (ByteSource.size container.source),
      id < container.directory.length :=
    fun id hmem => List.mem_range.1 (List.mem_filter.1 hmem).1
  have hanswers := Placer.placeAll_eq_map_verdict container.markers
    (container.directory.pairwise_idsWithin (ByteSource.size container.source)) hids
  have hdecisions := decisions_fileLumps context container.directory container.markers
    (ByteSource.size container.source) container.directory.indexed .start container.source rfl
  rw [LumpDirectory.keptIds_indexed, hanswers] at hdecisions
  rw [List.map_prod_left_eq_zip]
  exact hdecisions

/-! ## What truncated lumps change -/

/-- The markers of a container are those of its directory. -/
theorem markers_ofSource (source : σ) (id : ContainerId) :
    (ofSource source id).markers = .build (ofSource source id).directory := rfl

/-- An archive is read without a change to the size of the source. -/
theorem size_ofSource (source : σ) (id : ContainerId) :
    ByteSource.size (ofSource source id).source = ByteSource.size source :=
  (ByteSource.isKept_size (ByteSource.size source)).readDirectory rfl

/-- What a placer that is shown all lumps answers for one of them. -/
theorem getElem?_placeAll_ids {directory : LumpDirectory} (markers : MarkerTable) {lump : LumpId}
    (h : lump < directory.length) :
    (Placer.placeAll directory markers .start directory.ids)[lump]? =
      some (Placer.verdict directory markers directory.ids lump) := by
  have hids : ∀ id ∈ directory.ids, id < directory.length := fun id hmem => List.mem_range.1 hmem
  exact Placer.getElem?_placeAll markers (Placer.pairwise_ids directory) hids
    (List.getElem?_range h)

/-- **One lump makes the difference.**  Registration files exactly the lumps inside the source, in
order.  A lump gets from maps and markers what a placer gives it that is shown all lumps, provided
the lump that decides its map, if there is one, is inside the source.  Otherwise the placer that is
shown all lumps gives it the map that the truncated lump starts; registration goes by the lumps
inside the source alone, and agrees only if they leave a map of a name that reads the same. -/
theorem claimed_of_decider {ρ : Type} [Registry ρ] (context : OpenContext) (registry : ρ)
    (source : σ) (id : ContainerId) :
    let container := ofSource source id
    let directory := container.directory
    let markers := MarkerTable.build directory
    let shown := directory.idsWithin (ByteSource.size source)
    let whole := Placer.placeAll directory markers .start directory.ids
    let filings := (container.register context registry).1
    filings.map (·.lump) = shown ∧
      ∀ filing ∈ filings,
        (∃ entry, directory.get? filing.lump = some entry ∧ filing.Follows σ context entry) ∧
        ((∀ head, directory.decider? filing.lump = some head → head ∈ shown) →
          whole[filing.lump]? = some filing.claimed) ∧
        ∀ head name, directory.decider? filing.lump = some head → head ∉ shown →
          directory.name? head = some name →
            whole[filing.lump]? = some (some (.ofMap name)) ∧
            filing.claimed = Placer.verdict directory markers shown filing.lump ∧
            (filing.claimed = some (.ofMap name) ↔
              ∃ other, Placer.groupAfter? directory (shown.filter (· ≤ filing.lump)) = some other ∧
                other.text = name.text) := by
  intro container directory markers shown whole filings
  have hdecisions : filings.map Filing.decision =
      shown.map fun lump => (lump, Placer.verdict directory markers shown lump) := by
    have hall := decisions_filings context container
    rw [size_ofSource, markers_ofSource] at hall
    exact hall
  constructor
  · have hlumps := congrArg (List.map Prod.fst) hdecisions
    rw [List.map_map, List.map_map] at hlumps
    exact hlumps.trans (List.map_id shown)
  · intro filing hmem
    obtain ⟨lump, hshown, hdecision⟩ :=
      List.mem_map.1 (hdecisions ▸ List.mem_map_of_mem (f := Filing.decision) hmem)
    obtain ⟨hlump, hclaimed⟩ := Prod.mk.inj hdecision
    cases hlump
    have hbound : filing.lump < directory.length := List.mem_range.1 (List.mem_filter.1 hshown).1
    have hwhole := getElem?_placeAll_ids markers hbound
    refine ⟨?_, ?_, ?_⟩
    · obtain ⟨entry, hentry, hfollows⟩ := follows_of_mem_fileLumps context directory
        container.markers directory.indexed .start container.source hmem
      exact ⟨entry, LumpDirectory.get?_of_mem_indexed hentry, hfollows⟩
    · intro hhead
      -- the lumps inside the source are those that stay, and the one that decides is among them
      have hstays : Placer.verdict directory markers shown filing.lump =
          Placer.verdict directory markers directory.ids filing.lump :=
        Placer.verdict_filter _ fun head hlast => (List.mem_filter.1 (hhead head hlast)).2
      rw [← hclaimed, hstays]
      exact hwhole
    · intro head name hlast hout hname
      -- the lump itself is inside the source, so it is not the one that decides
      have hne : head ≠ filing.lump := fun heq => hout (heq ▸ hshown)
      refine ⟨?_, hclaimed.symm, ?_⟩
      · rw [← Placer.verdict_of_lastApart markers hbound hlast hne hname]
        exact hwhole
      · rw [← hclaimed]
        exact Placer.verdict_eq_ofMap_iff _

/-- An archive of three maps.  Two of them start with a lump whose bytes are not there. -/
def tornMaps : Archive.Builder :=
  (Archive.Builder.empty .pwad).addRecord "E1M1" 0x7fffffff 1
    |>.addMarker "NODES"
    |>.addMarker "MAP01"
    |>.addMarker "THINGS"
    |>.addRecord "MAP02" 0x7fffffff 1
    |>.addMarker "LINEDEFS"

/-- The container over that archive. -/
def tornWad : WadContainer Stream := ofSource (.ofBytes tornMaps.build) ⟨7⟩

/-- Truncated lumps do change where others are filed: `NODES` drops out of the map it belongs to, and
`LINEDEFS` comes into the map before its own. -/
theorem not_claimed_as_whole :
    ¬ ∀ (bytes : Bytes) (id : ContainerId),
      let container := ofSource (Stream.ofBytes bytes) id
      ∀ filing ∈ (container.register {} Catalog.empty).1,
        (Placer.placeAll container.directory (.build container.directory) .start
          container.directory.ids)[filing.lump]? = some filing.claimed := by
  intro hall
  have hdecisions : (tornWad.register {} Catalog.empty).1.map Filing.decision =
      [(1, none), (2, some (.map "MAP01")), (3, some (.map "MAP01")),
        (5, some (.map "MAP01"))] := by
    decide +kernel
  have hwhole : (Placer.placeAll tornWad.directory (.build tornWad.directory) .start
      tornWad.directory.ids)[5]? = some (some (.map "MAP02")) := by
    decide +kernel
  have hlast : (5, some (Namespace.map "MAP01")) ∈
      (tornWad.register {} Catalog.empty).1.map Filing.decision := by
    rw [hdecisions]
    decide
  obtain ⟨filing, hmem, hdecision⟩ := List.mem_map.1 hlast
  obtain ⟨hlump, hclaimed⟩ := Prod.mk.inj hdecision
  have hagree := hall tornMaps.build ⟨7⟩ filing hmem
  rw [hlump, hclaimed] at hagree
  have hmaps := Option.some.inj (hwhole.symm.trans hagree)
  exact absurd hmaps (by decide)

theorem claimed_of_decider_torn :
    ∃ inside ∈ (tornWad.register {} Catalog.empty).1,
      ∃ outside ∈ (tornWad.register {} Catalog.empty).1, inside.lump = 3 ∧ outside.lump = 5 ∧
        inside.claimed = some (.map "MAP01") ∧ outside.claimed ≠ some (.map "MAP02") := by
  obtain ⟨hlumps, hfilings⟩ :=
    claimed_of_decider {} Catalog.empty (Stream.ofBytes tornMaps.build) ⟨7⟩
  have hshown : tornWad.directory.idsWithin (ByteSource.size (Stream.ofBytes tornMaps.build)) =
      [1, 2, 3, 5] := by
    decide +kernel
  have hmem : ∀ lump ∈ [1, 2, 3, 5],
      ∃ filing ∈ (tornWad.register {} Catalog.empty).1, filing.lump = lump := by
    intro lump hlump
    exact List.mem_map.1 ((hlumps.trans hshown).symm ▸ hlump)
  obtain ⟨inside, hinside, hthree⟩ := hmem 3 (by decide)
  obtain ⟨outside, houtside, hfive⟩ := hmem 5 (by decide)
  refine ⟨inside, hinside, outside, houtside, hthree, hfive, ?_, ?_⟩
  · -- the lump that decides is `MAP01`, which is inside the source
    have hhead : tornWad.directory.decider? 3 = some 2 := by decide +kernel
    have hwhole : (Placer.placeAll tornWad.directory (.build tornWad.directory) .start
        tornWad.directory.ids)[3]? = some (some (.map "MAP01")) := by
      decide +kernel
    have hsame := (hfilings inside hinside).2.1
    rw [hthree] at hsame
    have hclaimed := hsame fun head hlast => by
      rw [← Option.some.inj (hhead.symm.trans hlast)]
      show 2 ∈ tornWad.directory.idsWithin _
      rw [hshown]
      decide
    exact (Option.some.inj (hwhole.symm.trans hclaimed)).symm
  · -- the lump that decides is `MAP02`, which is truncated
    have hhead : tornWad.directory.decider? outside.lump = some 4 := by
      rw [hfive]
      decide +kernel
    have hout : 4 ∉ tornWad.directory.idsWithin
        (ByteSource.size (Stream.ofBytes tornMaps.build)) := by
      rw [hshown]
      decide
    have hname : tornWad.directory.name? 4 = some (.ofText "MAP02") := by decide +kernel
    have hgroup : Placer.groupAfter? tornWad.directory ([1, 2, 3, 5].filter (· ≤ 5)) =
        some (.ofText "MAP01") := by
      decide +kernel
    obtain ⟨-, -, hiff⟩ := (hfilings outside houtside).2.2 4 (.ofText "MAP02") hhead hout hname
    intro hclaimed
    obtain ⟨other, hother, htext⟩ := hiff.1 hclaimed
    have hsame : Placer.groupAfter? tornWad.directory ([1, 2, 3, 5].filter (· ≤ 5)) =
        some other := by
      rw [← hshown, ← hfive]
      exact hother
    rw [← Option.some.inj (hgroup.symm.trans hsame)] at htext
    exact absurd htext (by decide)

end WadContainer

end WadCatalog
