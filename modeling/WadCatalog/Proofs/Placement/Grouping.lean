import WadCatalog.Proofs.Placement.MapGroups

/-
  What placement means.

  The carried map of a placer is known from the lumps that were shown (`placeAll_eq_map_verdict`).
  Here that is said without any scan:

  1. **One lump decides** (`Decides`): the last one shown, up to the lump that is placed, which holds
     no map data.  If the lump behind it *in the directory* has map data, it starts a map and the
     answer is that map (`verdict_of_decides`); otherwise, or if no lump decides, the answer is what
     the markers say (`verdict_of_no_map`).
  2. **If all lumps are shown**, the lumps that one decides for are that lump and the run of map data
     right behind it (`mem_mapGroup_iff`, `decides_ids_iff`).  So a map is such a group, no two groups
     meet (`eq_of_mem_mapGroup`), and inside a group the markers have no say.
-/

namespace WadCatalog.Placer

/-- Whether there is a lump of this id and it holds map data. -/
def holdsMapData (directory : LumpDirectory) (id : LumpId) : Bool :=
  (directory.name? id).any (·.isMapLump)

/-- What has a name is a lump of the directory. -/
theorem lt_length_of_name? {directory : LumpDirectory} {id : LumpId} {name : LumpName}
    (h : directory.name? id = some name) : id < directory.length := by
  obtain ⟨entry, hentry, -⟩ := Option.map_eq_some_iff.1 h
  exact (Array.getElem?_eq_some_iff.1 hentry).1

/-- A lump of a directory stands apart or holds map data. -/
theorem standsApart_eq_not {directory : LumpDirectory} {id : LumpId}
    (h : id < directory.length) : standsApart directory id = !holdsMapData directory id := by
  obtain ⟨name, hname⟩ := exists_name h
  rw [standsApart, holdsMapData, hname]
  rfl

/-- A lump that stands apart does not hold map data. -/
theorem holdsMapData_eq_false {directory : LumpDirectory} {id : LumpId}
    (h : standsApart directory id = true) : holdsMapData directory id = false := by
  unfold standsApart at h
  unfold holdsMapData
  cases hname : directory.name? id with
  | none => rfl
  | some name => simpa [hname] using h

/-- A lump starts a map if it stands apart and the lump behind it does not. -/
theorem startsMap_iff {directory : LumpDirectory} {id : LumpId} {name : LumpName}
    (h : directory.name? id = some name) :
    startsMap directory id name = true ↔
      standsApart directory id = true ∧ holdsMapData directory (id + 1) = true := by
  rw [← Bool.and_eq_true, startsMap, standsApart, h]
  rfl

/-! ## The lump that decides -/

/-- That a lump decides where another is placed: of the lumps shown up to that one, it is the last
without map data. -/
structure Decides (directory : LumpDirectory) (shown : List LumpId) (id head : LumpId) : Prop where
  mem : head ∈ shown
  le : head ≤ id
  apart : standsApart directory head = true
  last : ∀ other ∈ shown, head < other → other ≤ id → holdsMapData directory other = true

section Shown

variable {directory : LumpDirectory} {shown : List LumpId} {id head : LumpId}

/-- In ascending lumps, the last one without map data is the one that decides. -/
theorem lastApart?_eq_some_iff (hascending : shown.Pairwise (· < ·))
    (hids : ∀ id ∈ shown, id < directory.length) :
    lastApart? directory (shown.filter (· ≤ id)) = some head ↔
      Decides directory shown id head := by
  constructor
  · intro hlast
    obtain ⟨hmem, hapart⟩ := List.mem_filter.1 (List.mem_of_getLast? hlast)
    obtain ⟨hshown, hle⟩ := List.mem_filter.1 hmem
    refine ⟨hshown, of_decide_eq_true hle, hapart, ?_⟩
    intro other hother hlt hbound
    rw [← Bool.not_eq_false]
    intro hdata
    have hother' : other ∈ shown.filter (· ≤ id) :=
      List.mem_filter.2 ⟨hother, decide_eq_true hbound⟩
    have hback := le_of_lastApart (hascending.filter _) hlast hother' (by
      rw [standsApart_eq_not (hids other hother), hdata]
      rfl)
    exact absurd hlt (Nat.not_lt.2 hback)
  · intro hdecides
    have hhead : head ∈ (shown.filter (· ≤ id)).filter (standsApart directory) :=
      List.mem_filter.2 ⟨List.mem_filter.2 ⟨hdecides.mem, decide_eq_true hdecides.le⟩,
        hdecides.apart⟩
    cases hlast : lastApart? directory (shown.filter (· ≤ id)) with
    | none =>
      rw [List.getLast?_eq_none_iff.1 hlast] at hhead
      cases hhead
    | some other =>
      obtain ⟨hmem, hapart⟩ := List.mem_filter.1 (List.mem_of_getLast? hlast)
      obtain ⟨hshown, hle⟩ := List.mem_filter.1 hmem
      have hfront := le_of_lastApart (hascending.filter _) hlast (List.mem_filter.1 hhead).1
        hdecides.apart
      rcases Nat.lt_or_eq_of_le hfront with hlt | heq
      · -- the last one would hold map data
        have hdata := hdecides.last other hshown hlt (of_decide_eq_true hle)
        rw [holdsMapData_eq_false hapart] at hdata
        cases hdata
      · rw [heq]

variable (markers : MarkerTable) (hascending : shown.Pairwise (· < ·))
  (hids : ∀ id ∈ shown, id < directory.length)
include hascending hids

/-- **A lump that starts a map** places all that it decides for in that map. -/
theorem verdict_of_decides (hdecides : Decides directory shown id head) {name : LumpName}
    (hname : directory.name? head = some name)
    (hdata : holdsMapData directory (head + 1) = true) :
    verdict directory markers shown id = some (.ofMap name) := by
  have hlast := (lastApart?_eq_some_iff hascending hids).2 hdecides
  rw [holdsMapData] at hdata
  rw [verdict, groupAfter?, hlast, Option.bind_some, if_pos hdata, hname]

/-- **Where no map was started**, the markers say where a lump belongs. -/
theorem verdict_of_no_map
    (hnone : ∀ head, Decides directory shown id head →
      holdsMapData directory (head + 1) = false) :
    verdict directory markers shown id = markers.namespaceFor? id := by
  rw [verdict, groupAfter?]
  cases hlast : lastApart? directory (shown.filter (· ≤ id)) with
  | none => rfl
  | some head =>
    have hdata := hnone head ((lastApart?_eq_some_iff hascending hids).1 hlast)
    have hdata' : ¬ (directory.name? (head + 1)).any (·.isMapLump) = true := by
      rw [← holdsMapData, hdata]
      decide
    rw [Option.bind_some, if_neg hdata']

end Shown

/-! ## Groups -/

/-- The lumps of the map that a lump starts: that lump, and the map data right behind it as far as it
goes. -/
def mapGroup (directory : LumpDirectory) (head : LumpId) : List LumpId :=
  head :: (directory.ids.drop (head + 1)).takeWhile (holdsMapData directory)

/-- The front of a range up to which something holds. -/
theorem mem_takeWhile_range' {start count id : Nat} {holds : Nat → Bool} :
    id ∈ (List.range' start count).takeWhile holds ↔
      start ≤ id ∧ id < start + count ∧
        ∀ other, start ≤ other → other ≤ id → holds other = true := by
  induction count generalizing start with
  | zero =>
    rw [List.range'_zero, List.takeWhile_nil]
    constructor
    · exact fun h => nomatch h
    · rintro ⟨hle, hlt, -⟩
      omega
  | succ count ih =>
    rw [List.range'_succ, List.takeWhile_cons]
    split
    next hstart =>
      rw [List.mem_cons, ih]
      constructor
      · rintro (rfl | ⟨hle, hlt, hall⟩)
        · refine ⟨Nat.le_refl id, by omega, ?_⟩
          intro other hle hle'
          rwa [Nat.le_antisymm hle' hle]
        · refine ⟨by omega, by omega, ?_⟩
          intro other hother hother'
          rcases Nat.lt_or_eq_of_le hother with hlt | rfl
          · exact hall other hlt hother'
          · exact hstart
      · rintro ⟨hle, hlt, hall⟩
        rcases Nat.lt_or_eq_of_le hle with hbehind | rfl
        · exact .inr ⟨hbehind, by omega, fun other hother => hall other (by omega)⟩
        · exact .inl rfl
    next hstart =>
      constructor
      · exact fun h => nomatch h
      · rintro ⟨hle, -, hall⟩
        exact absurd (hall start (Nat.le_refl start) hle) hstart

/-- A lump is in a group if there is nothing but map data from the head of the group up to it. -/
theorem mem_mapGroup_iff {directory : LumpDirectory} {head id : Nat}
    (hhead : head < directory.length) :
    id ∈ mapGroup directory head ↔
      head ≤ id ∧ id < directory.length ∧
        ∀ other, head < other → other ≤ id → holdsMapData directory other = true := by
  have hrest : directory.ids.drop (head + 1) =
      List.range' (head + 1) (directory.length - (head + 1)) := by
    rw [LumpDirectory.ids, List.range_eq_range', List.drop_range', Nat.mul_one, Nat.zero_add]
  rw [mapGroup, hrest, List.mem_cons, mem_takeWhile_range']
  constructor
  · rintro (rfl | ⟨hle, hlt, hall⟩)
    · exact ⟨Nat.le_refl id, hhead, fun other hlt hle => by omega⟩
    · exact ⟨by omega, by omega, hall⟩
  · rintro ⟨hle, hlt, hall⟩
    rcases Nat.lt_or_eq_of_le hle with hbehind | rfl
    · exact .inr ⟨hbehind, by omega, hall⟩
    · exact .inl rfl

/-- If all lumps are shown, a lump that stands apart decides for its group. -/
theorem decides_ids_iff {directory : LumpDirectory} {head id : LumpId}
    (hid : id < directory.length) :
    Decides directory directory.ids id head ↔
      standsApart directory head = true ∧ head < directory.length ∧
        id ∈ mapGroup directory head := by
  constructor
  · rintro ⟨hmem, hle, hapart, hlast⟩
    have hhead : head < directory.length := List.mem_range.1 hmem
    refine ⟨hapart, hhead, (mem_mapGroup_iff hhead).2 ⟨hle, hid, ?_⟩⟩
    intro other hlt hbound
    exact hlast other (List.mem_range.2 (Nat.lt_of_le_of_lt hbound hid)) hlt hbound
  · rintro ⟨hapart, hhead, hgroup⟩
    obtain ⟨hle, -, hall⟩ := (mem_mapGroup_iff hhead).1 hgroup
    exact ⟨List.mem_range.2 hhead, hle, hapart, fun other _ => hall other⟩

/-- No lump is in the groups of two lumps that stand apart. -/
theorem eq_of_mem_mapGroup {directory : LumpDirectory} {one other id : LumpId}
    (hone : one < directory.length) (hother : other < directory.length)
    (hapart : standsApart directory one = true) (hapart' : standsApart directory other = true)
    (hgroup : id ∈ mapGroup directory one) (hgroup' : id ∈ mapGroup directory other) :
    one = other := by
  obtain ⟨hle, -, hall⟩ := (mem_mapGroup_iff hone).1 hgroup
  obtain ⟨hle', -, hall'⟩ := (mem_mapGroup_iff hother).1 hgroup'
  rcases Nat.lt_trichotomy one other with hlt | heq | hgt
  · have hdata := hall other hlt hle'
    rw [holdsMapData_eq_false hapart'] at hdata
    cases hdata
  · exact heq
  · have hdata := hall' one hgt hle
    rw [holdsMapData_eq_false hapart] at hdata
    cases hdata

/-! ## What placement means -/

section Whole

variable {directory : LumpDirectory} (markers : MarkerTable) {head id : LumpId}

/-- If all lumps are shown, those of a group are placed in the map that its head starts. -/
theorem verdict_of_mem_mapGroup {name : LumpName} (hname : directory.name? head = some name)
    (hstarts : startsMap directory head name = true) (hgroup : id ∈ mapGroup directory head) :
    verdict directory markers directory.ids id = some (.ofMap name) := by
  obtain ⟨hapart, hdata⟩ := (startsMap_iff hname).1 hstarts
  have hhead := lt_length_of_name? hname
  have hid : id < directory.length := ((mem_mapGroup_iff hhead).1 hgroup).2.1
  exact verdict_of_decides markers (pairwise_ids directory) (fun _ => List.mem_range.1)
    ((decides_ids_iff hid).2 ⟨hapart, hhead, hgroup⟩) hname hdata

/-- Those outside of all groups are placed by the markers. -/
theorem verdict_of_not_mem_mapGroup (hid : id < directory.length)
    (hnone : ∀ head name, directory.name? head = some name →
      startsMap directory head name = true → id ∉ mapGroup directory head) :
    verdict directory markers directory.ids id = markers.namespaceFor? id := by
  refine verdict_of_no_map markers (pairwise_ids directory) (fun _ => List.mem_range.1) ?_
  intro head hdecides
  obtain ⟨hapart, hhead, hgroup⟩ := (decides_ids_iff hid).1 hdecides
  obtain ⟨name, hname⟩ := exists_name hhead
  rw [← Bool.not_eq_true]
  intro hdata
  exact hnone head name hname ((startsMap_iff hname).2 ⟨hapart, hdata⟩) hgroup

end Whole

/-- **What placement means.**  Whichever lumps of a directory are shown in ascending order, the
answer for a lump is the map named after the last one shown up to it that holds no map data, if there
is such a lump and the lump right behind that one in the directory holds map data; otherwise it is
what the markers say.  So if all lumps are shown, a map is a lump that starts one together with the
whole run of map data right behind it, no lump is in two of these groups, and the markers are only
asked outside of them. -/
theorem placement_means (directory : LumpDirectory) (markers : MarkerTable) :
    (∀ shown : List LumpId, shown.Pairwise (· < ·) → (∀ id ∈ shown, id < directory.length) →
      let answers := placeAll directory markers .start shown
      answers.length = shown.length ∧
      ∀ (place : Nat) (id : LumpId), shown[place]? = some id →
        (∀ head name, Decides directory shown id head → directory.name? head = some name →
          holdsMapData directory (head + 1) = true →
            answers[place]? = some (some (.ofMap name))) ∧
        ((∀ head, Decides directory shown id head →
          holdsMapData directory (head + 1) = false) →
            answers[place]? = some (markers.namespaceFor? id))) ∧
    let whole := placeAll directory markers .start directory.ids
    (∀ head name, directory.name? head = some name → startsMap directory head name = true →
      ∀ id ∈ mapGroup directory head, whole[id]? = some (some (.ofMap name))) ∧
    (∀ id < directory.length,
      (∀ head name, directory.name? head = some name → startsMap directory head name = true →
        id ∉ mapGroup directory head) → whole[id]? = some (markers.namespaceFor? id)) ∧
    ∀ one name other name', directory.name? one = some name →
      startsMap directory one name = true → directory.name? other = some name' →
      startsMap directory other name' = true →
      ∀ id ∈ mapGroup directory one, id ∈ mapGroup directory other → one = other := by
  have hwhole : ∀ id < directory.length,
      (placeAll directory markers .start directory.ids)[id]? =
        some (verdict directory markers directory.ids id) := fun id hid =>
    getElem?_placeAll markers (pairwise_ids directory) (fun _ => List.mem_range.1)
      (List.getElem?_range hid)
  refine ⟨?_, ?_, ?_, ?_⟩
  · intro shown hascending hids answers
    refine ⟨?_, ?_⟩
    · show (placeAll directory markers .start shown).length = shown.length
      rw [placeAll_eq_map_verdict markers hascending hids, List.length_map]
    · intro place id hplace
      have hanswer : answers[place]? = some (verdict directory markers shown id) :=
        getElem?_placeAll markers hascending hids hplace
      refine ⟨?_, ?_⟩
      · intro head name hdecides hname hdata
        rw [hanswer, verdict_of_decides markers hascending hids hdecides hname hdata]
      · intro hnone
        rw [hanswer, verdict_of_no_map markers hascending hids hnone]
  · intro head name hname hstarts id hgroup
    have hid : id < directory.length :=
      ((mem_mapGroup_iff (lt_length_of_name? hname)).1 hgroup).2.1
    rw [hwhole id hid, verdict_of_mem_mapGroup markers hname hstarts hgroup]
  · intro id hid hnone
    rw [hwhole id hid, verdict_of_not_mem_mapGroup markers hid hnone]
  · intro one name other name' hname hstarts hname' hstarts' id hgroup hgroup'
    exact eq_of_mem_mapGroup (lt_length_of_name? hname) (lt_length_of_name? hname')
      ((startsMap_iff hname).1 hstarts).1 ((startsMap_iff hname').1 hstarts').1 hgroup hgroup'

/-- Two maps, and a lump between them that belongs to neither. -/
def twoMaps : LumpDirectory :=
  ⟨(["MAP01", "THINGS", "NOTES", "MAP02", "NODES"].map fun name => ⟨.ofText name, 12, 0⟩).toArray⟩

/-- With what stands between them left out, the data of the second map falls to the first. -/
theorem placement_means_twoMaps :
    (placeAll twoMaps (.build twoMaps) .start [0, 1, 4])[2]? = some (some (.map "MAP01")) ∧
      (placeAll twoMaps (.build twoMaps) .start twoMaps.ids)[4]? =
        some (some (.map "MAP02")) := by
  obtain ⟨hshown, hgroups, -, -⟩ := placement_means twoMaps (.build twoMaps)
  obtain ⟨-, hanswers⟩ := hshown [0, 1, 4] (by decide) (by decide)
  have hdecides : Decides twoMaps [0, 1, 4] 4 0 :=
    ⟨by decide, by decide, by decide, by decide⟩
  refine ⟨(hanswers 2 4 rfl).1 0 (.ofText "MAP01") hdecides (by decide) (by decide), ?_⟩
  exact hgroups 3 (.ofText "MAP02") (by decide) (by decide) 4 (by decide)

end WadCatalog.Placer
