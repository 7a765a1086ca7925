import WadCatalog.Proofs.Marker.Scan

/-
  Ranges between markers never overlap.

  However the markers of a directory are nested, repeated or left open, a recorded range runs from
  one marker to the very next one, since the pass restarts at every marker it meets.  So the lumps of
  a range are those whose *next* marker is the one that ends it (`contains_iff`), and a lump has only
  one next marker (`IsNextMarker.eq`).  From this follow:

  1. no lump is in two ranges, and no marker is in any (`eq_of_contains`, `exists_name_of_contains`);
  2. the namespace of a lump is told by its next marker alone (`namespaceFor?_build_iff`), and the
     order in which the ranges are tried makes no difference.
-/

namespace WadCatalog

namespace LumpDirectory

/-- The marker at a place of a directory. -/
def marker? (directory : LumpDirectory) (id : LumpId) : Option Marker :=
  (directory.name? id).bind Marker.ofName?

theorem getElem?_names (directory : LumpDirectory) (id : LumpId) :
    directory.names[id]? = directory.name? id := by
  rw [names, List.getElem?_map, Array.getElem?_toList]
  rfl

/-- That a marker is the first one behind a lump. -/
structure IsNextMarker (directory : LumpDirectory) (id next : LumpId) : Prop where
  lt : id < next
  isSome : (directory.marker? next).isSome = true
  between : ∀ other, id < other → other < next → directory.marker? other = none

/-- A lump has only one next marker. -/
theorem IsNextMarker.eq {directory : LumpDirectory} {id one other : LumpId}
    (hone : directory.IsNextMarker id one) (hother : directory.IsNextMarker id other) :
    one = other := by
  rcases Nat.lt_trichotomy one other with hlt | heq | hgt
  · have hnone := hother.between one hone.lt hlt
    exact absurd hone.isSome (by rw [hnone]; decide)
  · exact heq
  · have hnone := hone.between other hother.lt hgt
    exact absurd hother.isSome (by rw [hnone]; decide)

end LumpDirectory

namespace MarkerTable

theorem markerAt?_names (directory : LumpDirectory) (id : LumpId) :
    markerAt? directory.names id = directory.marker? id := by
  rw [markerAt?, LumpDirectory.getElem?_names, LumpDirectory.marker?]

/-! ## Recorded ranges -/

/-- A marker is the last one before a place if there is none in between. -/
theorem markerBefore?_names_eq_some_iff {directory : LumpDirectory} {id before : LumpId} :
    markerBefore? directory.names id = some before ↔
      before < id ∧ (directory.marker? before).isSome = true ∧
        ∀ other, before < other → other < id → directory.marker? other = none := by
  rw [markerBefore?, lastBefore?_eq_some_iff]
  simp only [markerAt?_names, Option.isSome_eq_false_iff, Option.isNone_iff_eq_none]

/-- A marker closes a label last if it closes it, and none behind it does. -/
theorem closing?_names_eq_some_iff {directory : LumpDirectory} {label : String}
    {finish : LumpId} :
    closing? directory.names label = some finish ↔
      directory.marker? finish = some ⟨label, .closing⟩ ∧
        ∀ later, finish < later → directory.marker? later ≠ some ⟨label, .closing⟩ := by
  rw [closing?, lastBefore?_eq_some_iff]
  simp only [markerAt?_names, decide_eq_true_eq, decide_eq_false_iff_not]
  constructor
  · rintro ⟨-, hfinish, hlater⟩
    refine ⟨hfinish, fun later hafter hmarker => ?_⟩
    rw [← markerAt?_names] at hmarker
    refine hlater later hafter (lt_of_markerAt? hmarker) ?_
    rwa [← markerAt?_names]
  · rintro ⟨hfinish, hlater⟩
    refine ⟨?_, hfinish, fun later hafter _ => hlater later hafter⟩
    rw [← markerAt?_names] at hfinish
    exact lt_of_markerAt? hfinish

/-- What the table of a directory lists. -/
theorem mem_toList_build_iff {directory : LumpDirectory} {label : String} {range : MarkerRange} :
    (label, range) ∈ (build directory).toList ↔
      closing? directory.names label = some range.finish ∧
        markerBefore? directory.names range.finish = range.start := by
  have hget := get?_ofNames directory.names label
  rw [toList, Std.TreeMap.mem_toList_iff_getElem?_eq_some]
  change (build directory).get? label = some range ↔ _
  rw [build, hget, Option.map_eq_some_iff]
  constructor
  · rintro ⟨finish, hfinish, rfl⟩
    exact ⟨hfinish, rfl⟩
  · rintro ⟨hfinish, hstart⟩
    exact ⟨range.finish, hfinish, by rw [hstart]⟩

/-- **The lumps of a range** are those between markers whose next marker is the end of the range. -/
theorem contains_iff {directory : LumpDirectory} {label : String} {range : MarkerRange}
    (hmem : (label, range) ∈ (build directory).toList) {id : LumpId} :
    range.contains id = true ↔
      directory.marker? id = none ∧ (∃ before < id, (directory.marker? before).isSome = true) ∧
        directory.IsNextMarker id range.finish := by
  obtain ⟨hclosing, hstart⟩ := mem_toList_build_iff.1 hmem
  have hfinish : (directory.marker? range.finish).isSome = true := by
    rw [(closing?_names_eq_some_iff.1 hclosing).1]
    rfl
  rw [MarkerRange.contains, Bool.and_eq_true, decide_eq_true_eq, Option.any_eq_true]
  simp only [decide_eq_true_eq]
  constructor
  · rintro ⟨⟨before, hbefore, hafter⟩, hlt⟩
    obtain ⟨-, hmarker, hnone⟩ := markerBefore?_names_eq_some_iff.1 (hstart.trans hbefore)
    refine ⟨hnone id hafter hlt, ⟨before, hafter, hmarker⟩, hlt, hfinish, ?_⟩
    exact fun other hother hlt => hnone other (Nat.lt_trans hafter hother) hlt
  · rintro ⟨hnone, ⟨before, hbefore, hmarker⟩, hnext⟩
    -- the last marker before the end cannot be behind the lump, so it is in front of it
    rw [← markerAt?_names] at hmarker
    obtain ⟨start, hlast⟩ := exists_markerBefore? (Nat.lt_trans hbefore hnext.lt) hmarker
    obtain ⟨hlt, hstarts, -⟩ := markerBefore?_names_eq_some_iff.1 hlast
    refine ⟨⟨start, hstart.symm.trans hlast, ?_⟩, hnext.lt⟩
    rcases Nat.lt_trichotomy start id with hfront | rfl | hback
    · exact hfront
    · rw [hnone] at hstarts
      cases hstarts
    · rw [hnext.between start hback hlt] at hstarts
      cases hstarts

/-- No lump is in two ranges. -/
theorem eq_of_contains {directory : LumpDirectory} {one other : String × MarkerRange}
    (hone : one ∈ (build directory).toList) (hother : other ∈ (build directory).toList)
    {id : LumpId} (hin : one.2.contains id = true) (hin' : other.2.contains id = true) :
    one = other := by
  obtain ⟨label, start, finish⟩ := one
  obtain ⟨label', start', finish'⟩ := other
  have hfinish : finish = finish' :=
    ((contains_iff hone).1 hin).2.2.eq ((contains_iff hother).1 hin').2.2
  obtain ⟨hclosing, hstart⟩ := mem_toList_build_iff.1 hone
  obtain ⟨hclosing', hstart'⟩ := mem_toList_build_iff.1 hother
  simp only at hclosing hclosing' hstart hstart'
  subst hfinish
  have hlabel := (closing?_names_eq_some_iff.1 hclosing).1.symm.trans
    (closing?_names_eq_some_iff.1 hclosing').1
  cases hlabel
  rw [← hstart, ← hstart']

/-- A lump in a recorded range is a lump of the directory, and no marker. -/
theorem exists_name_of_contains {directory : LumpDirectory} {entry : String × MarkerRange}
    (hmem : entry ∈ (build directory).toList) {id : LumpId}
    (hin : entry.2.contains id = true) :
    ∃ name, directory.name? id = some name ∧ name.isMarker = false := by
  obtain ⟨hnone, -, hnext⟩ := (contains_iff hmem).1 hin
  -- the end of the range is an entry of the directory, so the lump before it is one too
  have hbound : id < directory.names.length := by
    have hclosing := (mem_toList_build_iff.1 hmem).1
    exact Nat.lt_trans hnext.lt (closing?_lt hclosing)
  have hname := List.getElem?_eq_getElem hbound
  rw [LumpDirectory.getElem?_names] at hname
  refine ⟨_, hname, ?_⟩
  rw [LumpDirectory.marker?, hname, Option.bind_some] at hnone
  rw [LumpName.isMarker, hnone]
  rfl

/-! ## Namespaces -/

/-- What a range says about the namespace of a lump. -/
def claim (id : LumpId) (entry : String × MarkerRange) : Option Namespace :=
  if entry.2.contains id then Namespace.ofMarkerLabel? entry.1 else none

theorem claim_eq_some_iff {id : LumpId} {entry : String × MarkerRange} {space : Namespace} :
    claim id entry = some space ↔
      entry.2.contains id = true ∧ Namespace.ofMarkerLabel? entry.1 = some space := by
  unfold claim
  split <;> simp_all

/-- If at most one element of a list has an answer, that is the first one found. -/
theorem findSome?_eq_some_iff_of_unique {α β : Type} {answer : α → Option β} {elements : List α}
    (hunique : ∀ one ∈ elements, ∀ other ∈ elements, (answer one).isSome → (answer other).isSome →
      one = other) {result : β} :
    elements.findSome? answer = some result ↔ ∃ one ∈ elements, answer one = some result := by
  constructor
  · exact List.exists_of_findSome?_eq_some
  · rintro ⟨one, hone, hanswer⟩
    cases hfound : elements.findSome? answer with
    | none =>
      rw [List.findSome?_eq_none_iff.1 hfound one hone] at hanswer
      cases hanswer
    | some found =>
      obtain ⟨other, hother, hanswer'⟩ := List.exists_of_findSome?_eq_some hfound
      have heq := hunique one hone other hother (by simp [hanswer]) (by simp [hanswer'])
      rw [← hanswer', ← heq, hanswer]

/-- In any order, the ranges give the namespace that one of them gives. -/
theorem findSome?_claim_eq_some_iff {directory : LumpDirectory} {id : LumpId}
    {order : List (String × MarkerRange)} (horder : order.Perm (build directory).toList)
    {space : Namespace} :
    order.findSome? (claim id) = some space ↔
      ∃ entry ∈ (build directory).toList, claim id entry = some space := by
  rw [findSome?_eq_some_iff_of_unique]
  · simp only [horder.mem_iff]
  · intro one hone other hother hclaim hclaim'
    obtain ⟨space, hspace⟩ := Option.isSome_iff_exists.1 hclaim
    obtain ⟨space', hspace'⟩ := Option.isSome_iff_exists.1 hclaim'
    exact eq_of_contains (horder.mem_iff.1 hone) (horder.mem_iff.1 hother)
      (claim_eq_some_iff.1 hspace).1 (claim_eq_some_iff.1 hspace').1

/-- **The namespace of a lump** is told by its next marker, if that closes its label for the last
time. -/
theorem namespaceFor?_build_iff {directory : LumpDirectory} {id : LumpId} {space : Namespace} :
    (build directory).namespaceFor? id = some space ↔
      directory.marker? id = none ∧ (∃ before < id, (directory.marker? before).isSome = true) ∧
        ∃ next label, directory.IsNextMarker id next ∧
          directory.marker? next = some ⟨label, .closing⟩ ∧
          Namespace.ofMarkerLabel? label = some space ∧
          ∀ later, next < later → directory.marker? later ≠ some ⟨label, .closing⟩ := by
  have hfound : (build directory).namespaceFor? id = some space ↔
      ∃ entry ∈ (build directory).toList, claim id entry = some space :=
    findSome?_claim_eq_some_iff (List.Perm.refl _)
  rw [hfound]
  constructor
  · rintro ⟨⟨label, range⟩, hmem, hclaim⟩
    obtain ⟨hin, hspace⟩ := claim_eq_some_iff.1 hclaim
    obtain ⟨hnone, hbefore, hnext⟩ := (contains_iff hmem).1 hin
    obtain ⟨hfinish, hlater⟩ :=
      closing?_names_eq_some_iff.1 (mem_toList_build_iff.1 hmem).1
    exact ⟨hnone, hbefore, range.finish, label, hnext, hfinish, hspace, hlater⟩
  · rintro ⟨hnone, hbefore, next, label, hnext, hfinish, hspace, hlater⟩
    have hmem : (label, (⟨markerBefore? directory.names next, next⟩ : MarkerRange)) ∈
        (build directory).toList :=
      mem_toList_build_iff.2 ⟨closing?_names_eq_some_iff.2 ⟨hfinish, hlater⟩, rfl⟩
    exact ⟨_, hmem, claim_eq_some_iff.2 ⟨(contains_iff hmem).2 ⟨hnone, hbefore, hnext⟩, hspace⟩⟩

/-- **Ranges never overlap**, for any directory however malformed.  A lump is in at most one recorded
range, and then it is no marker itself.  So in whatever order the ranges are tried, the same namespace
is found; and it is found exactly if the lump is no marker, there is some marker before it, and the
first marker behind it closes, for the last time in the directory, a label that stands for the
namespace. -/
theorem ranges_never_overlap (directory : LumpDirectory) (id : LumpId) :
    let table := build directory
    (∀ one ∈ table.toList, ∀ other ∈ table.toList,
      one.2.contains id = true → other.2.contains id = true → one = other) ∧
    (∀ entry ∈ table.toList, entry.2.contains id = true →
      ∃ name, directory.name? id = some name ∧ name.isMarker = false) ∧
    (∀ order : List (String × MarkerRange), order.Perm table.toList →
      (order.findSome? fun (label, range) =>
        if range.contains id then Namespace.ofMarkerLabel? label else none) =
          table.namespaceFor? id) ∧
    ∀ space, table.namespaceFor? id = some space ↔
      directory.marker? id = none ∧
      (∃ before < id, (directory.marker? before).isSome = true) ∧
      ∃ next label, id < next ∧ directory.marker? next = some ⟨label, .closing⟩ ∧
        (∀ other, id < other → other < next → directory.marker? other = none) ∧
        Namespace.ofMarkerLabel? label = some space ∧
        ∀ later, next < later → directory.marker? later ≠ some ⟨label, .closing⟩ := by
  intro table
  refine ⟨?_, ?_, ?_, ?_⟩
  · intro one hone other hother hin hin'
    exact eq_of_contains hone hother hin hin'
  · intro entry hmem hin
    exact exists_name_of_contains hmem hin
  · intro order horder
    apply Option.ext
    intro space
    exact (findSome?_claim_eq_some_iff horder).trans
      (findSome?_claim_eq_some_iff (List.Perm.refl _)).symm
  · intro space
    rw [namespaceFor?_build_iff]
    constructor
    · rintro ⟨hnone, hbefore, next, label, hnext, hfinish, hspace, hlater⟩
      exact ⟨hnone, hbefore, next, label, hnext.lt, hfinish, hnext.between, hspace, hlater⟩
    · rintro ⟨hnone, hbefore, next, label, hlt, hfinish, hbetween, hspace, hlater⟩
      have hnext : directory.IsNextMarker id next := ⟨hlt, by rw [hfinish]; rfl, hbetween⟩
      exact ⟨hnone, hbefore, next, label, hnext, hfinish, hspace, hlater⟩

/-- A group of textures inside another one. -/
def nestedFlats : LumpDirectory :=
  ⟨(["F_START", "F1_START", "FLOOR1", "F1_END", "FLOOR2", "F_END"].map
    fun name => ⟨.ofText name, 12, 0⟩).toArray⟩

/-- What stands behind the inner group is between the end of that one and the end of the outer one,
in whatever order the two are tried. -/
theorem ranges_never_overlap_nested :
    ((build nestedFlats).toList.reverse.findSome? fun (label, range) =>
      if range.contains 4 then Namespace.ofMarkerLabel? label else none) = some .flats := by
  obtain ⟨-, -, horder, hspace⟩ := ranges_never_overlap nestedFlats 4
  have hlast : ∀ later, 5 < later →
      nestedFlats.marker? later ≠ some ⟨"F", .closing⟩ := by
    intro later hlater hmarker
    rw [← markerAt?_names] at hmarker
    exact absurd (lt_of_markerAt? hmarker) (Nat.not_lt.2 hlater)
  rw [horder _ (List.reverse_perm _)]
  refine (hspace .flats).2 ⟨by decide, ⟨3, by decide, by decide⟩, 5, "F", by decide, by decide, ?_,
    by decide, hlast⟩
  intro other hafter hbefore
  exact absurd hbefore (Nat.not_lt.2 hafter)

end MarkerTable

end WadCatalog
