import WadCatalog.Proofs.Catalog.IdMap

/-
  What a catalog records.

  A catalog keeps its resources twice: in one list, in which the id of a resource is its place, and
  by address.  `IsConsistent` says that the two tell the same.  It holds of the empty catalog, one
  more resource keeps it, and so does any number of them (`isConsistent_addAll`).

  The resources that a container announces come to stand behind those there were before, under the
  ids that follow (`entries_addAll`, `answers_addAll`); nothing that was recorded changes.
-/

namespace WadCatalog

namespace Catalog

/-! ## The list and the addresses -/

/-- That the two ways a catalog keeps its resources tell the same. -/
structure IsConsistent (catalog : Catalog) : Prop where
  /-- The id of a resource is its place. -/
  ids : ∀ (place : Nat) (entry : CatalogEntry),
    catalog.entries.toList[place]? = some entry → entry.id = ⟨place⟩
  /-- The ids at an address are those of its resources, latest first. -/
  byPath : ∀ path : ResourcePath, catalog.byPath.getD path [] =
    ((catalog.entries.toList.filter (·.path = path)).map (·.id)).reverse

theorem isConsistent_empty : empty.IsConsistent where
  ids _ _ h := nomatch h
  byPath _ := rfl

/-- One more resource keeps a catalog consistent. -/
theorem IsConsistent.add {catalog : Catalog} (h : catalog.IsConsistent) (path : ResourcePath)
    (container : ContainerId) : (catalog.add path container).2.IsConsistent where
  ids place entry hentry := by
    rw [Catalog.add, Array.toList_push, List.getElem?_append] at hentry
    split at hentry
    · exact h.ids place entry hentry
    next hbound =>
      rw [List.getElem?_singleton] at hentry
      split at hentry
      next hzero =>
        cases hentry
        rw [Array.length_toList] at hbound hzero
        exact congrArg ResourceId.mk (by rw [length]; omega)
      · cases hentry
  byPath other := by
    show (catalog.byPath.insert path _).getD other [] = _
    rw [Std.TreeMap.getD_insert, Catalog.add, Array.toList_push, List.filter_append,
      List.map_append, List.reverse_append, ← h.byPath other]
    by_cases hpath : path = other
    · have hcompare : compare path other = .eq := hpath ▸ Std.ReflCmp.compare_self
      rw [if_pos hcompare, List.filter_cons_of_pos (by simpa using hpath), hpath]
      rfl
    · have hcompare : ¬ compare path other = .eq :=
        fun heq => hpath (Std.LawfulEqOrd.eq_of_compare heq)
      rw [if_neg hcompare, List.filter_cons_of_neg (by simpa using hpath)]
      rfl

/-- Any number of resources keeps a catalog consistent. -/
theorem isConsistent_addAll {catalog : Catalog} (h : catalog.IsConsistent)
    (container : ContainerId) (paths : List ResourcePath) :
    (Registry.addAll container catalog paths).2.IsConsistent := by
  induction paths generalizing catalog with
  | nil => exact h
  | cons path rest ih => exact ih (h.add path container)

/-- Giving out the id of a container does so, too. -/
theorem IsConsistent.allocateContainerId {catalog : Catalog} (h : catalog.IsConsistent) :
    catalog.allocateContainerId.2.IsConsistent :=
  ⟨h.ids, h.byPath⟩

/-- The resource that stands for an address is the last one there. -/
theorem IsConsistent.lookup?_eq {catalog : Catalog} (h : catalog.IsConsistent)
    (path : ResourcePath) :
    catalog.lookup? path =
      (catalog.entries.toList.filter (·.path = path)).getLast?.map (·.id) := by
  rw [lookup?, h.byPath, List.head?_reverse, List.getLast?_map]

/-- All resources at an address are those of the entries there, in the same order. -/
theorem IsConsistent.lookupAll_eq {catalog : Catalog} (h : catalog.IsConsistent)
    (path : ResourcePath) :
    catalog.lookupAll path = (catalog.entries.toList.filter (·.path = path)).map (·.id) := by
  rw [lookupAll, h.byPath, List.reverse_reverse]

/-- An entry is found under its id. -/
theorem IsConsistent.get?_of_mem {catalog : Catalog} (h : catalog.IsConsistent)
    {entry : CatalogEntry} (hmem : entry ∈ catalog.entries.toList) :
    catalog.get? entry.id = some entry := by
  obtain ⟨place, hplace⟩ := List.mem_iff_getElem?.1 hmem
  rw [h.ids place entry hplace, get?, ← Array.getElem?_toList]
  exact hplace

/-- Different places of a catalog have different ids. -/
theorem IsConsistent.nodup_ids {catalog : Catalog} (h : catalog.IsConsistent) :
    (catalog.entries.toList.map (·.id)).Nodup := by
  rw [List.nodup_iff_injective_getElem]
  rintro ⟨place, hplace⟩ ⟨other, hother⟩ heq
  rw [List.length_map] at hplace hother
  have hfirst := h.ids place _ (List.getElem?_eq_getElem hplace)
  have hsecond := h.ids other _ (List.getElem?_eq_getElem hother)
  simp only [List.getElem_map, hfirst, hsecond] at heq
  exact Fin.ext (ResourceId.mk.inj heq)

/-! ## What is announced -/

/-- The entries of resources that a container announces at the given addresses, the first of them
under the number `start`. -/
def entriesFrom (container : ContainerId) : (start : Nat) → List ResourcePath → List CatalogEntry
  | _, [] => []
  | start, path :: rest => ⟨⟨start⟩, path, container⟩ :: entriesFrom container (start + 1) rest

theorem container_of_mem_entriesFrom {container : ContainerId} {start : Nat}
    {paths : List ResourcePath} {entry : CatalogEntry}
    (h : entry ∈ entriesFrom container start paths) : entry.container = container := by
  induction paths generalizing start with
  | nil => cases h
  | cons path rest ih =>
    rcases List.mem_cons.1 h with rfl | hrest
    · rfl
    · exact ih hrest

/-- All of these entries are the container's. -/
theorem filter_entriesFrom_self (container : ContainerId) (start : Nat)
    (paths : List ResourcePath) :
    (entriesFrom container start paths).filter (·.container = container) =
      entriesFrom container start paths := by
  rw [List.filter_eq_self]
  intro entry hentry
  exact decide_eq_true (container_of_mem_entriesFrom hentry)

/-- None of them is another's. -/
theorem filter_entriesFrom_of_ne {container other : ContainerId} (h : container ≠ other)
    (start : Nat) (paths : List ResourcePath) :
    (entriesFrom container start paths).filter (·.container = other) = [] := by
  rw [List.filter_eq_nil_iff]
  intro entry hentry hother
  exact h ((container_of_mem_entriesFrom hentry).symm.trans (of_decide_eq_true hother))

/-- The entries are numbered in the order of the addresses. -/
theorem getElem?_entriesFrom (container : ContainerId) (start : Nat) (paths : List ResourcePath)
    (place : Nat) :
    (entriesFrom container start paths)[place]? =
      paths[place]?.map fun path => ⟨⟨start + place⟩, path, container⟩ := by
  induction paths generalizing start place with
  | nil => rfl
  | cons path rest ih =>
    cases place with
    | zero => rfl
    | succ place =>
      rw [entriesFrom, List.getElem?_cons_succ, ih, List.getElem?_cons_succ, Nat.add_assoc,
        Nat.add_comm 1]

/-- What is announced comes to stand behind what there was before. -/
theorem entries_addAll (container : ContainerId) (catalog : Catalog) (paths : List ResourcePath) :
    (Registry.addAll container catalog paths).2.entries.toList =
      catalog.entries.toList ++ entriesFrom container catalog.length paths := by
  induction paths generalizing catalog with
  | nil => exact (List.append_nil _).symm
  | cons path rest ih =>
    have hsize : (catalog.add path container).2.length = catalog.length + 1 := Array.size_push _
    have hentries : (catalog.add path container).2.entries.toList =
        catalog.entries.toList ++ [⟨⟨catalog.length⟩, path, container⟩] := Array.toList_push
    rw [Registry.addAll_cons]
    show (Registry.addAll container (catalog.add path container).2 rest).2.entries.toList = _
    rw [ih, hsize, hentries, List.append_assoc]
    rfl

/-- The answers are the ids of what is announced. -/
theorem answers_addAll (container : ContainerId) (catalog : Catalog) (paths : List ResourcePath) :
    (Registry.addAll container catalog paths).1 =
      (entriesFrom container catalog.length paths).map (·.id) := by
  induction paths generalizing catalog with
  | nil => rfl
  | cons path rest ih =>
    have hsize : (catalog.add path container).2.length = catalog.length + 1 := Array.size_push _
    rw [Registry.addAll_cons]
    show _ :: (Registry.addAll container (catalog.add path container).2 rest).1 = _
    rw [ih, hsize]
    rfl

/-- The ids are the numbers from the start on. -/
theorem ids_entriesFrom (container : ContainerId) (start : Nat) (paths : List ResourcePath) :
    (entriesFrom container start paths).map (·.id) =
      (List.range' start paths.length).map ResourceId.mk := by
  induction paths generalizing start with
  | nil => rfl
  | cons path rest ih =>
    rw [entriesFrom, List.map_cons, ih, List.length_cons, List.range'_succ, List.map_cons]

/-- The addresses are those that were given. -/
theorem paths_entriesFrom (container : ContainerId) (start : Nat) (paths : List ResourcePath) :
    (entriesFrom container start paths).map (·.path) = paths := by
  induction paths generalizing start with
  | nil => rfl
  | cons path rest ih => rw [entriesFrom, List.map_cons, ih]

/-- The answer for an address is the number of its entry. -/
theorem getElem?_answers (container : ContainerId) (catalog : Catalog) (paths : List ResourcePath)
    (place : Nat) :
    (Registry.addAll container catalog paths).1[place]? =
      paths[place]?.map fun _ => ⟨catalog.length + place⟩ := by
  rw [answers_addAll, List.getElem?_map, getElem?_entriesFrom, Option.map_map]
  rfl

/-- What was announced is found under its number. -/
theorem get?_addAll (container : ContainerId) (catalog : Catalog) {paths : List ResourcePath}
    {place : Nat} {path : ResourcePath} (hpath : paths[place]? = some path) :
    (Registry.addAll container catalog paths).2.get? ⟨catalog.length + place⟩ =
      some ⟨⟨catalog.length + place⟩, path, container⟩ := by
  have hlength : catalog.entries.toList.length = catalog.length := Array.length_toList
  rw [get?, ← Array.getElem?_toList, entries_addAll,
    List.getElem?_append_right (hlength ▸ Nat.le_add_right _ _), hlength, Nat.add_sub_cancel_left,
    getElem?_entriesFrom, hpath]
  rfl

/-- A catalog never answers twice with one id. -/
theorem nodup_answers (container : ContainerId) (catalog : Catalog) (paths : List ResourcePath) :
    (Registry.addAll container catalog paths).1.Nodup := by
  rw [answers_addAll, ids_entriesFrom]
  exact List.Nodup.map (fun _ _ h => ResourceId.mk.inj h) List.nodup_range'

/-- Announcing resources gives out no ids of containers. -/
theorem nextContainer_addAll (container : ContainerId) (catalog : Catalog)
    (paths : List ResourcePath) :
    (Registry.addAll container catalog paths).2.nextContainer = catalog.nextContainer := by
  induction paths generalizing catalog with
  | nil => rfl
  | cons path rest ih => exact ih _

end Catalog

end WadCatalog
