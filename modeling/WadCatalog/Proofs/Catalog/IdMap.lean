import Mathlib.Data.List.Nodup
import Mathlib.Data.List.ProdSigma
import WadCatalog.Catalog.IdMap

/-
  What an id map answers after resources were announced.

  A container announces its lumps one after another, and its map records each answer of the registry.
  Two questions are taken apart here:

  1. **What the registry is asked** (`Registry.addAll`).  The calls and the answers do not depend on
     the map, so announcing is asking first and recording afterwards (`announce_eq`).
  2. **What the map holds then** (`insertAll`).  Both of its halves are filled by insertions of which
     the last one under a key counts (`getElem?_insertAll`).  If no lump is recorded twice, a lump
     leads to the resource recorded with it, whatever the registry answered; the way back needs that
     no *resource* is recorded twice.

  The listing of a map is sorted by lumps.  It is known from the map alone: an ascending list that
  holds all its lumps gives it (`resourceIds_eq_filterMap`), since there is only one way to sort.

  What containers record are the answers of a registry next to ascending lumps.  So no pair is lost on
  the way to the resources, whatever the answers are (`resourceIds_zip`).
-/

namespace WadCatalog

/-! ## Asking a registry -/

namespace Registry

variable {ρ : Type} [Registry ρ]

/-- Adds resources at several addresses for one container, one call after another: the answers in
order, and the registry afterwards. -/
def addAll (container : ContainerId) : ρ → List ResourcePath → List ResourceId × ρ
  | registry, [] => ([], registry)
  | registry, path :: rest =>
    let (id, registry) := addResource registry path container
    let (ids, registry) := addAll container registry rest
    (id :: ids, registry)

theorem addAll_cons (container : ContainerId) (registry : ρ) (path : ResourcePath)
    (rest : List ResourcePath) :
    addAll container registry (path :: rest) =
      ((addResource registry path container).1 ::
          (addAll container (addResource registry path container).2 rest).1,
        (addAll container (addResource registry path container).2 rest).2) := rfl

/-- A registry answers every call once. -/
@[simp] theorem length_addAll (container : ContainerId) (registry : ρ)
    (paths : List ResourcePath) :
    (addAll container registry paths).1.length = paths.length := by
  induction paths generalizing registry with
  | nil => rfl
  | cons path rest ih => rw [addAll_cons, List.length_cons, ih, List.length_cons]

end Registry

namespace IdMap

/-! ## Recording several pairs -/

/-- The map after several pairs were recorded, in order. -/
def insertAll (map : IdMap) : List (ResourceId × LumpId) → IdMap
  | [] => map
  | (resource, lump) :: rest => (map.insert resource lump).insertAll rest

/-- Announcing lumps is asking the registry and recording its answers. -/
theorem announce_eq {ρ : Type} [Registry ρ] (container : ContainerId) (map : IdMap) (registry : ρ)
    (lumps : List (LumpId × ResourcePath)) :
    announce container map registry lumps =
      (map.insertAll
          ((Registry.addAll container registry (lumps.map (·.2))).1.zip (lumps.map (·.1))),
        (Registry.addAll container registry (lumps.map (·.2))).2) := by
  induction lumps generalizing map registry with
  | nil => rfl
  | cons announced rest ih =>
    obtain ⟨lump, path⟩ := announced
    exact ih _ _

/-- Of several insertions into a map, the last one under a key counts. -/
theorem getElem?_insertAll {κ ν : Type} [Ord κ] [Std.TransOrd κ] [Std.LawfulEqOrd κ]
    [DecidableEq κ] (pairs : List (κ × ν)) (map : Std.TreeMap κ ν) (key : κ) :
    (pairs.foldl (fun map pair => map.insert pair.1 pair.2) map)[key]? =
      ((pairs.filter (·.1 = key)).getLast?.map (·.2)).or map[key]? := by
  induction pairs generalizing map with
  | nil => rfl
  | cons pair rest ih =>
    rw [List.foldl_cons, ih, Std.TreeMap.getElem?_insert]
    by_cases hkey : pair.1 = key
    · have hcompare : compare pair.1 key = .eq := hkey ▸ Std.ReflCmp.compare_self
      rw [if_pos hcompare, List.filter_cons_of_pos (by simpa using hkey), List.getLast?_cons]
      cases (rest.filter (·.1 = key)).getLast? <;> rfl
    · have hcompare : ¬ compare pair.1 key = .eq :=
        fun heq => hkey (Std.LawfulEqOrd.eq_of_compare heq)
      rw [if_neg hcompare, List.filter_cons_of_neg (by simpa using hkey)]

/-- If no key comes twice, the last pair of a key is the only one. -/
theorem getLast?_filter_of_nodup {κ ν : Type} [DecidableEq κ] {pairs : List (κ × ν)}
    (hnodup : (pairs.map (·.1)).Nodup) {key : κ} {value : ν} :
    (pairs.filter (·.1 = key)).getLast?.map (·.2) = some value ↔ (key, value) ∈ pairs := by
  constructor
  · intro h
    obtain ⟨⟨found, other⟩, hlast, rfl⟩ := Option.map_eq_some_iff.1 h
    obtain ⟨hmem, hkey⟩ := List.mem_filter.1 (List.mem_of_getLast? hlast)
    cases of_decide_eq_true hkey
    exact hmem
  · intro hmem
    have hfiltered : (key, value) ∈ pairs.filter (·.1 = key) :=
      List.mem_filter.2 ⟨hmem, decide_eq_true rfl⟩
    cases hlast : (pairs.filter (·.1 = key)).getLast? with
    | none =>
      rw [List.getLast?_eq_none_iff.1 hlast] at hfiltered
      cases hfiltered
    | some found =>
      obtain ⟨hfound, hkey⟩ := List.mem_filter.1 (List.mem_of_getLast? hlast)
      have hsame := List.inj_on_of_nodup_map hnodup hfound hmem (of_decide_eq_true hkey)
      rw [hsame]
      rfl

theorem lumps_insertAll (map : IdMap) (pairs : List (ResourceId × LumpId)) :
    (map.insertAll pairs).lumps =
      pairs.foldl (fun lumps pair => lumps.insert pair.1 pair.2) map.lumps := by
  induction pairs generalizing map with
  | nil => rfl
  | cons pair rest ih => exact ih _

theorem resources_insertAll (map : IdMap) (pairs : List (ResourceId × LumpId)) :
    (map.insertAll pairs).resources =
      (pairs.map Prod.swap).foldl (fun resources pair => resources.insert pair.1 pair.2)
        map.resources := by
  induction pairs generalizing map with
  | nil => rfl
  | cons pair rest ih => exact ih _

/-- A resource leads to the lump it was last recorded with. -/
theorem lumpOf?_insertAll (pairs : List (ResourceId × LumpId)) (resource : ResourceId) :
    (empty.insertAll pairs).lumpOf? resource =
      (pairs.filter (·.1 = resource)).getLast?.map (·.2) := by
  rw [lumpOf?, lumps_insertAll, getElem?_insertAll]
  exact Option.or_none

/-- A lump leads to the resource it was last recorded with. -/
theorem resourceOf?_insertAll (pairs : List (ResourceId × LumpId)) (lump : LumpId) :
    (empty.insertAll pairs).resourceOf? lump =
      ((pairs.map Prod.swap).filter (·.1 = lump)).getLast?.map (·.2) := by
  rw [resourceOf?, resources_insertAll, getElem?_insertAll]
  exact Option.or_none

/-- A resource only leads to a lump it was recorded with. -/
theorem mem_of_lumpOf?_insertAll {pairs : List (ResourceId × LumpId)} {resource : ResourceId}
    {lump : LumpId} (h : (empty.insertAll pairs).lumpOf? resource = some lump) :
    (resource, lump) ∈ pairs := by
  rw [lumpOf?_insertAll] at h
  obtain ⟨⟨found, other⟩, hlast, rfl⟩ := Option.map_eq_some_iff.1 h
  obtain ⟨hmem, hkey⟩ := List.mem_filter.1 (List.mem_of_getLast? hlast)
  cases of_decide_eq_true hkey
  exact hmem

/-- If no lump is recorded twice, lumps lead to the resources they were recorded with. -/
theorem resourceOf?_insertAll_iff {pairs : List (ResourceId × LumpId)}
    (hlumps : (pairs.map (·.2)).Nodup) {resource : ResourceId} {lump : LumpId} :
    (empty.insertAll pairs).resourceOf? lump = some resource ↔ (resource, lump) ∈ pairs := by
  have hkeys : ((pairs.map Prod.swap).map (·.1)).Nodup := by
    rw [List.map_map]
    exact hlumps
  rw [resourceOf?_insertAll, getLast?_filter_of_nodup hkeys, List.mem_map_swap]

/-- If no resource is recorded twice, resources lead to the lumps they were recorded with. -/
theorem lumpOf?_insertAll_iff {pairs : List (ResourceId × LumpId)}
    (hresources : (pairs.map (·.1)).Nodup) {resource : ResourceId} {lump : LumpId} :
    (empty.insertAll pairs).lumpOf? resource = some lump ↔ (resource, lump) ∈ pairs := by
  rw [lumpOf?_insertAll, getLast?_filter_of_nodup hresources]

/-! ## Listing -/

/-- The values of a map are those of its pairs, in the same order. -/
theorem values_eq_map_toList {κ ν : Type} [Ord κ] (map : Std.TreeMap κ ν) :
    map.values = map.toList.map (·.2) := by
  show map.inner.inner.values =
    (Std.DTreeMap.Internal.Impl.Const.toList map.inner.inner).map (·.2)
  rw [Std.DTreeMap.Internal.Impl.values_eq_map_snd,
    Std.DTreeMap.Internal.Impl.Const.toList_eq_toListModel_map, List.map_map]
  rfl

/-- There is only one way to sort pairs by distinct lumps. -/
theorem eq_of_ascending {left right : List (LumpId × ResourceId)}
    (hleft : left.Pairwise fun a b => a.1 < b.1) (hright : right.Pairwise fun a b => a.1 < b.1)
    (hsame : ∀ pair, pair ∈ left ↔ pair ∈ right) : left = right := by
  have hdistinct : ∀ pairs : List (LumpId × ResourceId),
      (pairs.Pairwise fun a b => a.1 < b.1) → pairs.Nodup := by
    intro pairs h
    refine h.imp ?_
    rintro a b hlt rfl
    exact Nat.lt_irrefl _ hlt
  refine List.Perm.eq_of_pairwise ?_ hleft hright
    ((List.perm_ext_iff_of_nodup (hdistinct left hleft) (hdistinct right hright)).2 hsame)
  intro a b _ _ hab hba
  exact absurd hab (Nat.lt_asymm hba)

/-- The pairs of a map ascend by their lumps. -/
theorem ascending_toList (map : IdMap) : map.resources.toList.Pairwise fun a b => a.1 < b.1 :=
  Std.TreeMap.ordered_keys_toList.imp fun h => Nat.compare_eq_lt.1 h

/-- The lumps of a map with their resources, by an ascending list that holds all of its lumps. -/
theorem toList_resources {map : IdMap} {lumps : List LumpId} (hascending : lumps.Pairwise (· < ·))
    (hall : ∀ lump resource, map.resourceOf? lump = some resource → lump ∈ lumps) :
    map.resources.toList =
      lumps.filterMap fun lump => (map.resourceOf? lump).map fun resource => (lump, resource) := by
  refine eq_of_ascending (ascending_toList map) ?_ ?_
  · refine List.Pairwise.filterMap _ ?_ hascending
    intro lump other hlt pair hpair pair' hpair'
    obtain ⟨resource, -, rfl⟩ := Option.map_eq_some_iff.1 hpair
    obtain ⟨resource', -, rfl⟩ := Option.map_eq_some_iff.1 hpair'
    exact hlt
  · rintro ⟨lump, resource⟩
    rw [Std.TreeMap.mem_toList_iff_getElem?_eq_some, List.mem_filterMap]
    constructor
    · intro h
      exact ⟨lump, hall lump resource h, by rw [resourceOf?, h]; rfl⟩
    · rintro ⟨other, -, h⟩
      obtain ⟨found, hfound, heq⟩ := Option.map_eq_some_iff.1 h
      cases heq
      exact hfound

/-- **The listing.**  An ascending list that holds all lumps of a map gives its listing. -/
theorem resourceIds_eq_filterMap {map : IdMap} {lumps : List LumpId}
    (hascending : lumps.Pairwise (· < ·))
    (hall : ∀ lump resource, map.resourceOf? lump = some resource → lump ∈ lumps) :
    map.resourceIds = lumps.filterMap map.resourceOf? := by
  rw [resourceIds, values_eq_map_toList, toList_resources hascending hall, List.map_filterMap]
  congr 1
  funext lump
  rw [Option.map_map]
  exact Option.map_id'

/-- Resources recorded with ascending lumps are listed in the order they were recorded in, even if
some of them are the same. -/
theorem resourceIds_insertAll {pairs : List (ResourceId × LumpId)}
    (hascending : (pairs.map (·.2)).Pairwise (· < ·)) :
    (empty.insertAll pairs).resourceIds = pairs.map (·.1) := by
  have hnodup : (pairs.map (·.2)).Nodup := hascending.imp Nat.ne_of_lt
  have hall : ∀ lump resource, (empty.insertAll pairs).resourceOf? lump = some resource →
      lump ∈ pairs.map (·.2) := by
    intro lump resource h
    exact List.mem_map_of_mem ((resourceOf?_insertAll_iff hnodup).1 h)
  have hfound : ∀ pair ∈ pairs,
      (empty.insertAll pairs).resourceOf? pair.2 = some pair.1 :=
    fun pair hmem => (resourceOf?_insertAll_iff hnodup).2 hmem
  rw [resourceIds_eq_filterMap hascending hall, List.filterMap_map]
  rw [← List.filterMap_eq_map]
  exact List.filterMap_congr hfound

/-! ## Answers and lumps side by side -/

section Answers

variable {answers : List ResourceId} {lumps : List LumpId}

/-- What is recorded are the answers, each with the lump at the same place. -/
theorem mem_zip_iff {resource : ResourceId} {lump : LumpId} :
    (resource, lump) ∈ answers.zip lumps ↔
      ∃ place : Nat, answers[place]? = some resource ∧ lumps[place]? = some lump := by
  rw [List.mem_iff_getElem?]
  simp only [List.getElem?_zip_eq_some]

/-- A lump leads to the answer at its place. -/
theorem resourceOf?_zip (hlength : answers.length = lumps.length)
    (hascending : lumps.Pairwise (· < ·)) {place : Nat} {lump : LumpId}
    (hlump : lumps[place]? = some lump) :
    (empty.insertAll (answers.zip lumps)).resourceOf? lump = answers[place]? := by
  have hplace : place < answers.length := by
    rw [hlength]
    exact (List.getElem?_eq_some_iff.1 hlump).1
  have hnodup : ((answers.zip lumps).map (·.2)).Nodup := by
    rw [List.map_snd_zip (Nat.le_of_eq hlength.symm)]
    exact hascending.imp Nat.ne_of_lt
  rw [List.getElem?_eq_getElem hplace, resourceOf?_insertAll_iff hnodup]
  exact mem_zip_iff.2 ⟨place, List.getElem?_eq_getElem hplace, hlump⟩

/-- No other lump leads anywhere. -/
theorem resourceOf?_zip_of_not_mem {lump : LumpId} (h : lump ∉ lumps) :
    (empty.insertAll (answers.zip lumps)).resourceOf? lump = none := by
  rw [resourceOf?_insertAll, Option.map_eq_none_iff, List.getLast?_eq_none_iff,
    List.filter_eq_nil_iff]
  rintro ⟨found, resource⟩ hmem hfound
  obtain ⟨⟨answer, other⟩, hpair, heq⟩ := List.mem_map.1 hmem
  cases heq
  cases of_decide_eq_true hfound
  exact h (List.of_mem_zip hpair).2

/-- Nor does any other resource. -/
theorem lumpOf?_zip_of_not_mem {resource : ResourceId} (h : resource ∉ answers) :
    (empty.insertAll (answers.zip lumps)).lumpOf? resource = none := by
  cases hlump : (empty.insertAll (answers.zip lumps)).lumpOf? resource with
  | none => rfl
  | some lump =>
    have hmem := mem_of_lumpOf?_insertAll hlump
    exact absurd (List.of_mem_zip hmem).1 h

/-- If no answer comes twice, the two ways of a map are inverse to each other. -/
theorem lumpOf?_zip_iff (hlength : answers.length = lumps.length)
    (hascending : lumps.Pairwise (· < ·)) (hanswers : answers.Nodup) {resource : ResourceId}
    {lump : LumpId} :
    (empty.insertAll (answers.zip lumps)).lumpOf? resource = some lump ↔
      (empty.insertAll (answers.zip lumps)).resourceOf? lump = some resource := by
  have hresources : ((answers.zip lumps).map (·.1)).Nodup := by
    rw [List.map_fst_zip (Nat.le_of_eq hlength)]
    exact hanswers
  have hlumps : ((answers.zip lumps).map (·.2)).Nodup := by
    rw [List.map_snd_zip (Nat.le_of_eq hlength.symm)]
    exact hascending.imp Nat.ne_of_lt
  rw [lumpOf?_insertAll_iff hresources, resourceOf?_insertAll_iff hlumps]

/-- An answer leads to the lump at the last of its places. -/
theorem exists_lumpOf?_zip (hlength : answers.length = lumps.length)
    (hascending : lumps.Pairwise (· < ·)) {resource : ResourceId} (h : resource ∈ answers) :
    ∃ (place : Nat) (lump : LumpId), answers[place]? = some resource ∧ lumps[place]? = some lump ∧
      (empty.insertAll (answers.zip lumps)).lumpOf? resource = some lump ∧
      ∀ other : Nat, answers[other]? = some resource → other ≤ place := by
  let recorded := (answers.zip lumps).filter (·.1 = resource)
  have hpairs : ∀ other : Nat, answers[other]? = some resource →
      ∃ lump, lumps[other]? = some lump ∧ (resource, lump) ∈ recorded := by
    intro other hother
    have hbound := (List.getElem?_eq_some_iff.1 hother).1
    rw [hlength] at hbound
    have hlump := List.getElem?_eq_getElem hbound
    exact ⟨_, hlump, List.mem_filter.2 ⟨mem_zip_iff.2 ⟨other, hother, hlump⟩, decide_eq_true rfl⟩⟩
  obtain ⟨first, hfirst⟩ := List.mem_iff_getElem?.1 h
  obtain ⟨_, -, hmem⟩ := hpairs first hfirst
  obtain ⟨⟨found, lump⟩, hlast⟩ : ∃ last, recorded.getLast? = some last :=
    ⟨_, List.getLast?_eq_some_getLast (List.ne_nil_of_mem hmem)⟩
  obtain ⟨hzip, hfound⟩ := List.mem_filter.1 (List.mem_of_getLast? hlast)
  cases of_decide_eq_true hfound
  obtain ⟨place, hanswer, hlump⟩ := mem_zip_iff.1 hzip
  refine ⟨place, lump, hanswer, hlump, ?_, ?_⟩
  · rw [lumpOf?_insertAll, hlast]
    rfl
  · intro other hother
    -- the lumps of the recorded pairs ascend, so none is behind that of the last pair
    obtain ⟨otherLump, hotherLump, hrecorded⟩ := hpairs other hother
    have hle : otherLump ≤ lump := by
      have hsorted : recorded.Pairwise fun a b => a.2 < b.2 := by
        refine List.Pairwise.filter _ (List.pairwise_map.1 ?_)
        rw [List.map_snd_zip (Nat.le_of_eq hlength.symm)]
        exact hascending
      obtain ⟨front, hfront⟩ := List.getLast?_eq_some_iff.1 hlast
      rw [hfront] at hsorted hrecorded
      rcases List.mem_append.1 hrecorded with hin | hin
      · exact Nat.le_of_lt ((List.pairwise_append.1 hsorted).2.2 _ hin _ (List.mem_singleton.2 rfl))
      · cases List.mem_singleton.1 hin
        exact Nat.le_refl _
    refine Nat.le_of_not_lt fun hlt => ?_
    obtain ⟨hplace, rfl⟩ := List.getElem?_eq_some_iff.1 hlump
    obtain ⟨hbound, rfl⟩ := List.getElem?_eq_some_iff.1 hotherLump
    exact absurd (List.pairwise_iff_getElem.1 hascending place other hplace hbound hlt)
      (Nat.not_lt.2 hle)

/-- The answers are listed as they came, even if some of them are the same. -/
theorem resourceIds_zip (hlength : answers.length = lumps.length)
    (hascending : lumps.Pairwise (· < ·)) :
    (empty.insertAll (answers.zip lumps)).resourceIds = answers := by
  have hlumps : ((answers.zip lumps).map (·.2)).Pairwise (· < ·) := by
    rw [List.map_snd_zip (Nat.le_of_eq hlength.symm)]
    exact hascending
  rw [resourceIds_insertAll hlumps, List.map_fst_zip (Nat.le_of_eq hlength)]

end Answers

end IdMap

end WadCatalog
