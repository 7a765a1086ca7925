import WadCatalog.Placement

/-
  What a placer answers, without its state.

  A `Placer` goes over lumps in ascending order and carries the map it is in.  Here the carried map
  is read off the lumps that were shown:

  1. **The last lump that stands apart decides** (`lastApart?`, `groupAfter?`).  Lumps with map data
     never change the carried map, every other lump does: it starts a map if the lump behind it in
     the *directory* has map data, and ends the current map otherwise.  So the carried map depends on
     the last of the others alone.  `advance_groupAfter` is this for one lump.
  2. **A whole run** (`placeAll_eq_map_verdict`) follows by induction on the lumps still to come,
     with those already shown in front of them.  That the lumps ascend is used once: the lumps shown
     up to some lump are those with an id no greater.
  3. **Leaving lumps out** (`verdict_filter`) does not change an answer as long as the lump that
     decides is among those that stay.
  4. **The lump that decides, if it is another one, starts a map** (`verdict_of_lastApart`), since the
     lump behind it must have map data.  So if it is left out, the answer was a map, and what comes in
     its place is that map only by coincidence of names (`verdict_eq_ofMap_iff`).
-/

namespace WadCatalog.Placer

/-! ## The map that a run of lumps leaves -/

/-- Whether there is a lump of this id and it holds no map data. -/
def standsApart (directory : LumpDirectory) (id : LumpId) : Bool :=
  (directory.name? id).any (!·.isMapLump)

/-- The last of some lumps that holds no map data. -/
def lastApart? (directory : LumpDirectory) (shown : List LumpId) : Option LumpId :=
  (shown.filter (standsApart directory)).getLast?

/-- The name of the map that is current after some lumps: that of the last one without map data, if
a lump with map data follows it in the directory. -/
def groupAfter? (directory : LumpDirectory) (shown : List LumpId) : Option LumpName :=
  (lastApart? directory shown).bind fun id =>
    if (directory.name? (id + 1)).any (·.isMapLump) then directory.name? id else none

/-- The namespace of a lump in a directory of which some lumps are shown: that of the current map,
or else the one that the markers give. -/
def verdict (directory : LumpDirectory) (markers : MarkerTable) (shown : List LumpId)
    (id : LumpId) : Option Namespace :=
  match groupAfter? directory (shown.filter (· ≤ id)) with
  | some name => some (.ofMap name)
  | none => markers.namespaceFor? id

/-- Every lump of a directory has a name. -/
theorem exists_name {directory : LumpDirectory} {id : LumpId} (h : id < directory.length) :
    ∃ name, directory.name? id = some name := by
  refine ⟨directory.entries[id].name, ?_⟩
  rw [LumpDirectory.name?, LumpDirectory.get?, Array.getElem?_eq_getElem h]
  rfl

/-- **One lump.**  The placer carries the map that the lumps before left, and after one more lump
it carries the map that this lump leaves. -/
theorem advance_groupAfter {directory : LumpDirectory} {id : LumpId} {name : LumpName}
    (hname : directory.name? id = some name) (shown : List LumpId) :
    (Placer.mk (groupAfter? directory shown)).advance directory id name =
      ⟨groupAfter? directory (shown ++ [id])⟩ := by
  have hapart : standsApart directory id = !name.isMapLump := by
    rw [standsApart, hname]
    rfl
  unfold advance startsMap
  by_cases hdata : name.isMapLump = true
  · -- map data leaves the map as it is
    have hlast : lastApart? directory (shown ++ [id]) = lastApart? directory shown := by
      have hfalse : ¬ standsApart directory id = true := by rw [hapart, hdata]; decide
      rw [lastApart?, List.filter_append, List.filter_cons_of_neg hfalse, List.filter_nil,
        List.append_nil]
      rfl
    rw [groupAfter?, groupAfter?, hlast, hdata]
    rfl
  · -- any other lump decides on its own
    have hdata : name.isMapLump = false := by simpa using hdata
    have hlast : lastApart? directory (shown ++ [id]) = some id := by
      have htrue : standsApart directory id = true := by rw [hapart, hdata]; rfl
      rw [lastApart?, List.filter_append, List.filter_cons_of_pos htrue, List.filter_nil,
        List.getLast?_concat]
    rw [groupAfter?, groupAfter?, hlast, hdata]
    simp only [Option.bind_some, hname, Bool.not_false, Bool.true_and, Bool.false_eq_true,
      if_false]
    split <;> rfl

/-- **One answer.**  What a placer answers for a lump is the verdict over the lumps shown so far. -/
theorem place_groupAfter {directory : LumpDirectory} (markers : MarkerTable) {id : LumpId}
    (hid : id < directory.length) (shown : List LumpId) :
    (Placer.mk (groupAfter? directory shown)).place directory markers id =
      (match groupAfter? directory (shown ++ [id]) with
        | some name => some (.ofMap name)
        | none => markers.namespaceFor? id, ⟨groupAfter? directory (shown ++ [id])⟩) := by
  obtain ⟨name, hentry⟩ := exists_name hid
  rw [place, hentry]
  simp only [advance_groupAfter hentry]
  split <;> simp_all

/-! ## A whole run -/

/-- In an ascending list, the elements no greater than one of them are those up to it. -/
theorem filter_le_of_pairwise {front rest : List LumpId} {id : LumpId}
    (h : (front ++ id :: rest).Pairwise (· < ·)) :
    (front ++ id :: rest).filter (· ≤ id) = front ++ [id] := by
  obtain ⟨-, hrest, hacross⟩ := List.pairwise_append.1 h
  have hbefore : front.filter (· ≤ id) = front := by
    apply List.filter_eq_self.2
    intro other hmem
    have hlt := hacross other hmem id List.mem_cons_self
    exact decide_eq_true (Nat.le_of_lt hlt)
  have hbehind : rest.filter (· ≤ id) = [] := by
    apply List.filter_eq_nil_iff.2
    intro other hmem
    have hlt := (List.pairwise_cons.1 hrest).1 other hmem
    simpa using hlt
  rw [List.filter_append, hbefore, List.filter_cons_of_pos (by simp), hbehind]

/-- The answers of a placer that has come behind the lumps in front. -/
theorem placeAll_groupAfter {directory : LumpDirectory} (markers : MarkerTable)
    (rest front : List LumpId) (hascending : (front ++ rest).Pairwise (· < ·))
    (hids : ∀ id ∈ rest, id < directory.length) :
    placeAll directory markers ⟨groupAfter? directory front⟩ rest =
      rest.map (verdict directory markers (front ++ rest)) := by
  induction rest generalizing front with
  | nil => rfl
  | cons id rest ih =>
    have hsplit : front ++ id :: rest = (front ++ [id]) ++ rest := by simp
    have hrest := ih (front ++ [id]) (hsplit ▸ hascending)
      (fun other hmem => hids other (List.mem_cons_of_mem _ hmem))
    have hfirst : verdict directory markers (front ++ id :: rest) id =
        match groupAfter? directory (front ++ [id]) with
        | some name => some (.ofMap name)
        | none => markers.namespaceFor? id := by
      rw [verdict, filter_le_of_pairwise hascending]
    rw [placeAll, place_groupAfter markers (hids id List.mem_cons_self)]
    simp only
    rw [hrest, List.map_cons, hfirst, hsplit]

/-- **What a placer answers.**  Over ascending lumps of a directory, each answer is the verdict over
the lumps shown. -/
theorem placeAll_eq_map_verdict {directory : LumpDirectory} (markers : MarkerTable)
    {shown : List LumpId} (hascending : shown.Pairwise (· < ·))
    (hids : ∀ id ∈ shown, id < directory.length) :
    placeAll directory markers .start shown =
      shown.map (verdict directory markers shown) :=
  placeAll_groupAfter markers shown [] hascending hids

/-- So the answer at the place of a lump is its verdict. -/
theorem getElem?_placeAll {directory : LumpDirectory} (markers : MarkerTable)
    {shown : List LumpId} (hascending : shown.Pairwise (· < ·))
    (hids : ∀ id ∈ shown, id < directory.length) {place : Nat} {id : LumpId}
    (hplace : shown[place]? = some id) :
    (placeAll directory markers .start shown)[place]? =
      some (verdict directory markers shown id) := by
  rw [placeAll_eq_map_verdict markers hascending hids, List.getElem?_map, hplace]
  rfl

/-! ## Leaving lumps out -/

/-- The last lump without map data is the same among the lumps that stay, if it is one of them. -/
theorem lastApart?_filter {directory : LumpDirectory} {shown : List LumpId} {keep : LumpId → Bool}
    (h : ∀ head, lastApart? directory shown = some head → keep head = true) :
    lastApart? directory (shown.filter keep) = lastApart? directory shown := by
  have hcomm : (shown.filter keep).filter (standsApart directory) =
      (shown.filter (standsApart directory)).filter keep := by
    rw [List.filter_filter, List.filter_filter]
    exact List.filter_congr fun id _ => Bool.and_comm _ _
  unfold lastApart? at h ⊢
  rw [hcomm]
  cases hlast : (shown.filter (standsApart directory)).getLast? with
  | none =>
    rw [List.getLast?_eq_none_iff.1 hlast]
    rfl
  | some head =>
    obtain ⟨front, hsplit⟩ := List.getLast?_eq_some_iff.1 hlast
    rw [hsplit, List.filter_append, List.filter_cons_of_pos (h head hlast), List.filter_nil,
      List.getLast?_concat]

/-- **Leaving lumps out.**  An answer stays as it is if the lump that decides it stays. -/
theorem verdict_filter {directory : LumpDirectory} (markers : MarkerTable) {shown : List LumpId}
    {keep : LumpId → Bool} {id : LumpId}
    (h : ∀ head, lastApart? directory (shown.filter (· ≤ id)) = some head → keep head = true) :
    verdict directory markers (shown.filter keep) id = verdict directory markers shown id := by
  have hcomm : (shown.filter keep).filter (· ≤ id) = (shown.filter (· ≤ id)).filter keep := by
    rw [List.filter_filter, List.filter_filter]
    exact List.filter_congr fun other _ => Bool.and_comm _ _
  rw [verdict, verdict, groupAfter?, groupAfter?, hcomm, lastApart?_filter h]

/-- In an ascending list nothing without map data is behind the last such lump. -/
theorem le_of_lastApart {directory : LumpDirectory} {shown : List LumpId} {head other : LumpId}
    (hascending : shown.Pairwise (· < ·)) (hlast : lastApart? directory shown = some head)
    (hmem : other ∈ shown) (hapart : standsApart directory other = true) : other ≤ head := by
  obtain ⟨front, hsplit⟩ := List.getLast?_eq_some_iff.1 hlast
  have hin : other ∈ front ++ [head] := hsplit ▸ List.mem_filter.2 ⟨hmem, hapart⟩
  have hpairs : (front ++ [head]).Pairwise (· < ·) := hsplit ▸ hascending.filter _
  rcases List.mem_append.1 hin with hfront | hhead
  · exact Nat.le_of_lt ((List.pairwise_append.1 hpairs).2.2 other hfront head List.mem_cons_self)
  · exact Nat.le_of_eq (List.mem_singleton.1 hhead)

/-- The ids of a directory ascend. -/
theorem pairwise_ids (directory : LumpDirectory) : directory.ids.Pairwise (· < ·) :=
  List.pairwise_lt_range

/-- **Another lump that decides starts a map.**  If all lumps are shown, and the last one without
map data up to some lump is not that lump itself, the answer is the map it starts. -/
theorem verdict_of_lastApart {directory : LumpDirectory} (markers : MarkerTable)
    {id head : LumpId} {name : LumpName} (hid : id < directory.length)
    (hlast : lastApart? directory (directory.ids.filter (· ≤ id)) = some head) (hne : head ≠ id)
    (hname : directory.name? head = some name) :
    verdict directory markers directory.ids id = some (.ofMap name) := by
  have hhead : head ∈ directory.ids.filter (· ≤ id) :=
    (List.mem_filter.1 (List.mem_of_getLast? hlast)).1
  have hle : head ≤ id := of_decide_eq_true (List.mem_filter.1 hhead).2
  have hlt : head < id := Nat.lt_of_le_of_ne hle hne
  -- the lump behind it is no later than the lump asked for, so it must have map data
  have hnext : head + 1 ∈ directory.ids.filter (· ≤ id) := by
    refine List.mem_filter.2 ⟨List.mem_range.2 (Nat.lt_of_le_of_lt hlt hid), ?_⟩
    exact decide_eq_true hlt
  have hdata : (directory.name? (head + 1)).any (·.isMapLump) = true := by
    obtain ⟨next, hentry⟩ := exists_name (Nat.lt_of_le_of_lt hlt hid)
    rw [hentry, Option.any_some]
    by_cases hdata : next.isMapLump = true
    · exact hdata
    · have hapart : standsApart directory (head + 1) = true := by
        rw [standsApart, hentry]
        simpa using hdata
      have hback := le_of_lastApart ((pairwise_ids directory).filter _) hlast hnext hapart
      exact absurd hback (Nat.not_succ_le_self head)
  rw [verdict, groupAfter?, hlast, Option.bind_some, if_pos hdata, hname]

/-! ## Maps and markers are told apart -/

/-- No marker stands for the namespace of a map. -/
theorem ofMarkerLabel?_ne_map (label name : String) :
    Namespace.ofMarkerLabel? label ≠ some (.map name) := by
  unfold Namespace.ofMarkerLabel?
  repeat' split
  all_goals simp

/-- Markers never give the namespace of a map. -/
theorem namespaceFor?_ne_map (markers : MarkerTable) (id : LumpId) (name : String) :
    markers.namespaceFor? id ≠ some (.map name) := by
  intro h
  obtain ⟨⟨label, range⟩, -, hfound⟩ := List.exists_of_findSome?_eq_some h
  simp only at hfound
  split at hfound
  · exact ofMarkerLabel?_ne_map label name hfound
  · cases hfound

/-- An answer is the namespace of a map exactly if the current map has a name that reads so. -/
theorem verdict_eq_ofMap_iff {directory : LumpDirectory} (markers : MarkerTable)
    {shown : List LumpId} {id : LumpId} {name : LumpName} :
    verdict directory markers shown id = some (.ofMap name) ↔
      ∃ other, groupAfter? directory (shown.filter (· ≤ id)) = some other ∧
        other.text = name.text := by
  unfold verdict
  cases hgroup : groupAfter? directory (shown.filter (· ≤ id)) with
  | none =>
    constructor
    · intro h
      exact absurd h (namespaceFor?_ne_map markers id name.text)
    · rintro ⟨other, hother, -⟩
      cases hother
  | some other =>
    constructor
    · intro h
      refine ⟨other, rfl, ?_⟩
      exact Namespace.map.inj (Option.some.inj h)
    · rintro ⟨_, hother, htext⟩
      cases hother
      exact congrArg (fun text => some (Namespace.map text)) htext

end WadCatalog.Placer
