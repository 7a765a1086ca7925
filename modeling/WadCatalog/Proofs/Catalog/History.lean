import Mathlib.Data.Finset.Sort
import WadCatalog.Proofs.Catalog.IdMap

/-
  What an id map answers after any history.

  Nothing keeps the two halves of an id map in step: a pair that shares its resource or its lump with
  an earlier one overwrites one half and leaves a remnant in the other.  Each half on its own is simple
  all the same:

  1. **Answers.**  The last pair with a key counts (`lumpOf?_insertAll`, `resourceOf?_insertAll_last`),
     so there is an answer exactly for the keys that were recorded.
  2. **How many.**  The keys of the half that leads to lumps are the recorded resources, each once
     (`length_insertAll`).
  3. **Listing.**  The half that leads to resources is listed by ascending lumps, with one answer for
     each lump that was recorded (`map_some_resourceIds`).  Whoever holds its pairs in some other order
     gets the same list by sorting them, and need not sort stably, since no lump comes twice
     (`resourceIds_eq_of_sorted`).

  If neither a resource nor a lump is recorded twice, nothing is overwritten, and the halves are inverse
  to each other.
-/

namespace WadCatalog.IdMap

variable {pairs : List (ResourceId × LumpId)}

/-! ## Answers -/

/-- A lump leads to the resource of the last pair it was recorded in. -/
theorem resourceOf?_insertAll_last (pairs : List (ResourceId × LumpId)) (lump : LumpId) :
    (empty.insertAll pairs).resourceOf? lump =
      (pairs.filter (·.2 = lump)).getLast?.map (·.1) := by
  have hswap : (pairs.map Prod.swap).filter (·.1 = lump) =
      (pairs.filter (·.2 = lump)).map Prod.swap := by
    rw [List.filter_map]
    rfl
  rw [resourceOf?_insertAll, hswap, List.getLast?_map, Option.map_map]
  rfl

/-- There is a last pair with a key exactly if there is one. -/
theorem isSome_getLast?_filter_iff {α κ ν : Type} [DecidableEq κ] {items : List α} {f : α → κ}
    {g : α → ν} {key : κ} :
    ((items.filter (f · = key)).getLast?.map g).isSome = true ↔ key ∈ items.map f := by
  rw [Option.isSome_map, List.getLast?_isSome, List.mem_map]
  constructor
  · intro hne
    obtain ⟨item, hmem⟩ := List.exists_mem_of_ne_nil _ hne
    obtain ⟨hitem, hkey⟩ := List.mem_filter.1 hmem
    exact ⟨item, hitem, of_decide_eq_true hkey⟩
  · rintro ⟨item, hitem, hkey⟩
    exact List.ne_nil_of_mem (List.mem_filter.2 ⟨hitem, decide_eq_true hkey⟩)

/-- A resource leads to a lump exactly if it was recorded. -/
theorem isSome_lumpOf?_insertAll_iff {resource : ResourceId} :
    ((empty.insertAll pairs).lumpOf? resource).isSome = true ↔ resource ∈ pairs.map (·.1) := by
  rw [lumpOf?_insertAll, isSome_getLast?_filter_iff]

/-- A lump leads to a resource exactly if it was recorded. -/
theorem isSome_resourceOf?_insertAll_iff {lump : LumpId} :
    ((empty.insertAll pairs).resourceOf? lump).isSome = true ↔ lump ∈ pairs.map (·.2) := by
  rw [resourceOf?_insertAll_last, isSome_getLast?_filter_iff]

/-! ## How many -/

/-- As many resources are served as were recorded, each counted once. -/
theorem length_insertAll (pairs : List (ResourceId × LumpId)) :
    (empty.insertAll pairs).length = (pairs.map (·.1)).toFinset.card := by
  have hnodup : (empty.insertAll pairs).lumps.keys.Nodup := by
    refine Std.TreeMap.distinct_keys.imp ?_
    rintro one other hne rfl
    exact hne Std.ReflCmp.compare_self
  have hkeys : (empty.insertAll pairs).lumps.keys.toFinset = (pairs.map (·.1)).toFinset := by
    ext resource
    rw [List.mem_toFinset, List.mem_toFinset, Std.TreeMap.mem_keys,
      ← isSome_lumpOf?_insertAll_iff, lumpOf?, Std.TreeMap.isSome_getElem?_iff_mem]
  rw [length, ← Std.TreeMap.length_keys, ← hkeys, List.toFinset_card_of_nodup hnodup]

/-! ## Listing -/

/-- What has an answer everywhere is listed with all of its answers. -/
theorem map_some_filterMap {α β : Type} {f : α → Option β} {items : List α}
    (h : ∀ item ∈ items, (f item).isSome = true) : (items.filterMap f).map some = items.map f := by
  induction items with
  | nil => rfl
  | cons item rest ih =>
    obtain ⟨value, hvalue⟩ := Option.isSome_iff_exists.1 (h item List.mem_cons_self)
    rw [List.filterMap_cons_some hvalue, List.map_cons, List.map_cons, hvalue,
      ih fun other hmem => h other (List.mem_cons_of_mem _ hmem)]

/-- **The listing** has the answer for each recorded lump, in ascending order of the lumps. -/
theorem map_some_resourceIds (pairs : List (ResourceId × LumpId)) :
    (empty.insertAll pairs).resourceIds.map some =
      (pairs.map (·.2)).toFinset.sort.map (empty.insertAll pairs).resourceOf? := by
  have hlumps : ∀ lump, lump ∈ (pairs.map (·.2)).toFinset.sort ↔
      ((empty.insertAll pairs).resourceOf? lump).isSome = true := by
    intro lump
    rw [Finset.mem_sort, List.mem_toFinset, isSome_resourceOf?_insertAll_iff]
  have hall : ∀ lump resource, (empty.insertAll pairs).resourceOf? lump = some resource →
      lump ∈ (pairs.map (·.2)).toFinset.sort := by
    intro lump resource h
    exact (hlumps lump).2 (Option.isSome_of_eq_some h)
  rw [resourceIds_eq_filterMap (Finset.sortedLT_sort _).pairwise hall]
  exact map_some_filterMap fun lump hmem => (hlumps lump).1 hmem

/-- **Any sort will do.**  The pairs of a map, in whatever order they come, give its listing once they
are sorted by lumps. -/
theorem resourceIds_eq_of_sorted {map : IdMap} {sorted : List (LumpId × ResourceId)}
    (hperm : sorted.Perm map.resources.toList) (hsorted : sorted.Pairwise fun a b => a.1 ≤ b.1) :
    map.resourceIds = sorted.map (·.2) := by
  have hdistinct : sorted.Pairwise fun a b => a.1 ≠ b.1 :=
    (hperm.pairwise_iff fun hne => Ne.symm hne).2 ((ascending_toList map).imp Nat.ne_of_lt)
  have hascending : sorted.Pairwise fun a b => a.1 < b.1 :=
    (hsorted.and hdistinct).imp fun h => Nat.lt_of_le_of_ne h.1 h.2
  rw [resourceIds, values_eq_map_toList,
    eq_of_ascending (ascending_toList map) hascending fun _ => hperm.mem_iff.symm]

/-- If no lump is recorded twice, each resource is listed as often as it was recorded. -/
theorem resourceIds_perm (hlumps : (pairs.map (·.2)).Nodup) :
    (empty.insertAll pairs).resourceIds.Perm (pairs.map (·.1)) := by
  have hlisted : (empty.insertAll pairs).resources.toList.Nodup := by
    refine (ascending_toList _).imp ?_
    rintro one other hlt rfl
    exact Nat.lt_irrefl _ hlt
  have hrecorded : (pairs.map Prod.swap).Nodup :=
    (List.Nodup.of_map _ hlumps).map Prod.swap_injective
  have hpairs : (empty.insertAll pairs).resources.toList.Perm (pairs.map Prod.swap) := by
    rw [List.perm_ext_iff_of_nodup hlisted hrecorded]
    rintro ⟨lump, resource⟩
    rw [Std.TreeMap.mem_toList_iff_getElem?_eq_some, ← resourceOf?,
      resourceOf?_insertAll_iff hlumps, List.mem_map_swap]
  have hresources := hpairs.map (·.2)
  rw [List.map_map] at hresources
  rw [resourceIds, values_eq_map_toList]
  exact hresources

/-- **After any history** of recorded pairs, a resource leads to the lump of the last pair with that
resource, and a lump to the resource of the last pair with that lump.  The listing has the answer for
each recorded lump, in ascending order of the lumps, and it is what any sort of the pairs of the map by
their lumps gives.  The length is the number of recorded resources, each counted once.  If no resource
and no lump was recorded twice, the two ways are inverse to each other, and the listing has every
recorded resource once. -/
theorem answers_after_history (pairs : List (ResourceId × LumpId)) :
    let map := empty.insertAll pairs
    (∀ resource, map.lumpOf? resource = (pairs.filter (·.1 = resource)).getLast?.map (·.2)) ∧
    (∀ lump, map.resourceOf? lump = (pairs.filter (·.2 = lump)).getLast?.map (·.1)) ∧
    map.resourceIds.map some = (pairs.map (·.2)).toFinset.sort.map map.resourceOf? ∧
    (∀ sorted : List (LumpId × ResourceId), sorted.Perm map.resources.toList →
      (sorted.Pairwise fun a b => a.1 ≤ b.1) → map.resourceIds = sorted.map (·.2)) ∧
    map.length = (pairs.map (·.1)).toFinset.card ∧
    ((pairs.map (·.1)).Nodup → (pairs.map (·.2)).Nodup →
      (∀ resource lump, map.lumpOf? resource = some lump ↔ map.resourceOf? lump = some resource) ∧
      map.resourceIds.Perm (pairs.map (·.1)) ∧ map.resourceIds.Nodup) := by
  intro map
  refine ⟨lumpOf?_insertAll pairs, resourceOf?_insertAll_last pairs, map_some_resourceIds pairs, ?_,
    length_insertAll pairs, ?_⟩
  · intro sorted hperm hsorted
    exact resourceIds_eq_of_sorted hperm hsorted
  · intro hresources hlumps
    have hperm := resourceIds_perm hlumps
    refine ⟨?_, hperm, hperm.nodup_iff.2 hresources⟩
    intro resource lump
    rw [lumpOf?_insertAll_iff hresources, resourceOf?_insertAll_iff hlumps]

/-- Pairs that come in no order, with nothing twice. -/
theorem answers_after_history_unordered :
    let pairs : List (ResourceId × LumpId) := [(⟨40⟩, 2), (⟨7⟩, 0), (⟨9⟩, 5)]
    let map := empty.insertAll pairs
    (pairs.map (·.1)).Nodup ∧ (pairs.map (·.2)).Nodup ∧
      map.resourceOf? 2 = some ⟨40⟩ ∧ map.lumpOf? ⟨40⟩ = some 2 ∧
      map.resourceIds.Perm [⟨40⟩, ⟨7⟩, ⟨9⟩] := by
  intro pairs map
  have hresources : (pairs.map (·.1)).Nodup := by decide
  have hlumps : (pairs.map (·.2)).Nodup := by decide
  obtain ⟨-, hlast, -, -, -, hdistinct⟩ := answers_after_history pairs
  obtain ⟨hinverse, hperm, -⟩ := hdistinct hresources hlumps
  have hresource : map.resourceOf? 2 = some ⟨40⟩ := hlast 2
  exact ⟨hresources, hlumps, hresource, (hinverse _ _).2 hresource, hperm⟩

-- one resource for two lumps, and then one lump for another resource: the halves fall out of step
example :
    let map := empty.insertAll [(⟨7⟩, 0), (⟨7⟩, 1), (⟨8⟩, 0)]
    map.lumpOf? ⟨7⟩ = some 1 ∧ map.lumpOf? ⟨8⟩ = some 0 ∧ map.resourceOf? 0 = some ⟨8⟩ ∧
      map.resourceIds = [⟨8⟩, ⟨7⟩] ∧ map.length = 2 := by decide

end WadCatalog.IdMap
