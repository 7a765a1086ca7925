import Mathlib.Order.Bounds.Basic
import WadCatalog.Proofs.Marker.Ranges
import WadCatalog.Proofs.Text.Encoding

/-
  Which ranges a directory has, without the pass that finds them.

  A reader of the directory would say it so: a lump *marks* one side of a label if its name is the
  label with the ending of that side behind it, and the range of a label goes from the last marker
  before its last closing marker to that one.  Three things have to be shown of the pass:

  1. **Names** (`Marker.ofText?_eq_some_iff`).  The pass cuts endings off, and tries `_START` first.
     That says the same as putting them on, since no name has both endings.
  2. **Greatest places** (`closing?_eq_some_iff`, `markerBefore?_eq_some_iff`).  What the pass
     remembers is the last place of a kind, hence the greatest one.
  3. **Order** (`pairwise_encode_toList`).  The table lists its labels as texts are ordered, by the
     numbers of their characters, and their bytes come in the same order.
-/

namespace WadCatalog

/-! ## Names of markers -/

namespace Marker

/-- A name has a label on one side if it is the label, which is not empty, and the ending. -/
theorem label?_eq_some_iff {side : MarkerSide} {name label : String} :
    label? side name = some label ↔ label ≠ "" ∧ name = label ++ side.ending := by
  have hempty : label ≠ "" ↔ 0 < label.toList.length := by
    rw [List.length_pos_iff, ne_eq, ne_eq, String.toList_eq_nil_iff]
  simp only [label?, Option.ite_none_right_eq_some, List.isSuffixOf_iff_suffix, Option.some.injEq]
  constructor
  · rintro ⟨⟨⟨front, hfront⟩, hlt⟩, rfl⟩
    rw [hempty, ← String.toList_inj, String.toList_append, String.toList_ofList, ← hfront]
    rw [← hfront, List.length_append] at hlt
    rw [List.length_append, Nat.add_sub_cancel, List.take_left]
    exact ⟨by omega, rfl⟩
  · rintro ⟨hne, rfl⟩
    have hpos := hempty.1 hne
    rw [String.toList_append, List.length_append]
    refine ⟨⟨List.suffix_append _ _, by omega⟩, ?_⟩
    rw [Nat.add_sub_cancel, List.take_left, String.ofList_toList]

/-- No name ends as the markers of both sides do. -/
theorem append_opening_ne (one other : String) :
    one ++ MarkerSide.opening.ending ≠ other ++ MarkerSide.closing.ending := by
  intro heq
  have hlast := congrArg (fun name : String => name.toList.getLast?) heq
  simp [MarkerSide.ending, String.toList_append] at hlast

/-- **A name is a marker** if it is a label and the ending of a side. -/
theorem ofText?_eq_some_iff {name label : String} {side : MarkerSide} :
    ofText? name = some ⟨label, side⟩ ↔ label ≠ "" ∧ name = label ++ side.ending := by
  rw [← label?_eq_some_iff]
  unfold ofText?
  cases hopening : label? .opening name with
  | some opened =>
    cases side with
    | opening => simp [hopening]
    | closing =>
      -- the ending `_START` is tried first, and then there is no other one
      obtain ⟨-, hname⟩ := label?_eq_some_iff.1 hopening
      have hclosing : label? .closing name ≠ some label := by
        intro hclosing
        obtain ⟨-, hname'⟩ := label?_eq_some_iff.1 hclosing
        exact append_opening_ne opened label (hname.symm.trans hname')
      simp [hclosing]
  | none =>
    cases side with
    | opening => simp [hopening]
    | closing => simp

end Marker

namespace LumpDirectory

/-- That a lump of a directory marks one side of a label. -/
structure Marks (directory : LumpDirectory) (id : LumpId) (label : String) (side : MarkerSide) :
    Prop where
  /-- The label is not empty. -/
  ne_empty : label ≠ ""
  /-- The name of the lump is the label with the ending of the side behind it. -/
  text : (directory.name? id).map (·.text) = some (label ++ side.ending)

/-- That a lump of a directory is a marker, of any label and either side. -/
def IsMarker (directory : LumpDirectory) (id : LumpId) : Prop :=
  ∃ label side, directory.Marks id label side

theorem marker?_eq_some_iff {directory : LumpDirectory} {id : LumpId} {label : String}
    {side : MarkerSide} :
    directory.marker? id = some ⟨label, side⟩ ↔ directory.Marks id label side := by
  rw [marker?, Option.bind_eq_some_iff]
  constructor
  · rintro ⟨name, hname, hmarker⟩
    obtain ⟨hne, htext⟩ := Marker.ofText?_eq_some_iff.1 hmarker
    refine ⟨hne, ?_⟩
    rw [hname, Option.map_some, htext]
  · rintro ⟨hne, htext⟩
    obtain ⟨name, hname, htext⟩ := Option.map_eq_some_iff.1 htext
    exact ⟨name, hname, Marker.ofText?_eq_some_iff.2 ⟨hne, htext⟩⟩

theorem isSome_marker?_iff {directory : LumpDirectory} {id : LumpId} :
    (directory.marker? id).isSome = true ↔ directory.IsMarker id := by
  rw [Option.isSome_iff_exists]
  constructor
  · rintro ⟨⟨label, side⟩, hmarker⟩
    exact ⟨label, side, marker?_eq_some_iff.1 hmarker⟩
  · rintro ⟨label, side, hmarks⟩
    exact ⟨⟨label, side⟩, marker?_eq_some_iff.2 hmarks⟩

end LumpDirectory

/-! ## Greatest places -/

/-- The last place of a kind is the greatest one. -/
theorem lastBefore?_eq_some_iff_isGreatest {bound last : Nat} {holds : Nat → Bool} :
    lastBefore? bound holds = some last ↔
      IsGreatest {place | place < bound ∧ holds place = true} last := by
  rw [lastBefore?_eq_some_iff]
  constructor
  · rintro ⟨hlt, hlast, hlater⟩
    refine ⟨⟨hlt, hlast⟩, ?_⟩
    rintro place ⟨hplace, hholds⟩
    rcases Nat.lt_or_ge last place with hafter | hbefore
    · rw [hlater place hafter hplace] at hholds
      cases hholds
    · exact hbefore
  · rintro ⟨⟨hlt, hlast⟩, hgreatest⟩
    refine ⟨hlt, hlast, ?_⟩
    intro later hafter hbefore
    rcases Bool.eq_false_or_eq_true (holds later) with htrue | hfalse
    · have hle : later ≤ last := hgreatest ⟨hbefore, htrue⟩
      omega
    · exact hfalse

namespace MarkerTable

variable {directory : LumpDirectory} {label : String} {range : MarkerRange} {id last : LumpId}

/-- The last closing marker of a label, as the greatest one. -/
theorem closing?_eq_some_iff :
    closing? directory.names label = some last ↔
      IsGreatest {id | directory.Marks id label .closing} last := by
  rw [closing?, lastBefore?_eq_some_iff_isGreatest]
  -- nothing behind the names is a marker, so the bound leaves none out
  have hmarks : ∀ id, (id < directory.names.length ∧
      decide (markerAt? directory.names id = some ⟨label, .closing⟩) = true) ↔
        directory.Marks id label .closing := by
    intro id
    rw [decide_eq_true_eq, ← LumpDirectory.marker?_eq_some_iff, ← markerAt?_names]
    exact ⟨fun h => h.2, fun h => ⟨lt_of_markerAt? h, h⟩⟩
  simp only [hmarks]

/-- The last marker before a place, as the greatest one. -/
theorem markerBefore?_eq_some_iff :
    markerBefore? directory.names id = some last ↔
      IsGreatest {before | before < id ∧ directory.IsMarker before} last := by
  rw [markerBefore?, lastBefore?_eq_some_iff_isGreatest]
  simp only [markerAt?_names, LumpDirectory.isSome_marker?_iff]

/-- There is no last marker before a place if there is none at all. -/
theorem markerBefore?_eq_none_iff :
    markerBefore? directory.names id = none ↔ ∀ before < id, ¬ directory.IsMarker before := by
  constructor
  · intro hnone before hlt hmarker
    rw [← LumpDirectory.isSome_marker?_iff, ← markerAt?_names] at hmarker
    obtain ⟨last, hlast⟩ := exists_markerBefore? hlt hmarker
    rw [hnone] at hlast
    cases hlast
  · intro hnone
    apply Option.eq_none_iff_forall_ne_some.2
    intro last hlast
    obtain ⟨hlt, hmarker⟩ := (markerBefore?_eq_some_iff.1 hlast).1
    exact hnone last hlt hmarker

/-- A label has a range exactly if some lump closes it. -/
theorem isSome_get?_build_iff :
    ((build directory).get? label).isSome = true ↔ ∃ id, directory.Marks id label .closing := by
  rw [build, get?_ofNames, Option.isSome_map, Option.isSome_iff_exists]
  constructor
  · rintro ⟨last, hlast⟩
    exact ⟨last, (closing?_eq_some_iff.1 hlast).1⟩
  · rintro ⟨id, hmarks⟩
    rw [← LumpDirectory.marker?_eq_some_iff, ← markerAt?_names] at hmarks
    exact exists_lastBefore? (lt_of_markerAt? hmarks) (decide_eq_true hmarks)

/-! ## Order -/

theorem mem_toList_iff {table : MarkerTable} :
    (label, range) ∈ table.toList ↔ table.get? label = some range := by
  rw [toList, Std.TreeMap.mem_toList_iff_getElem?_eq_some]
  rfl

/-- A table lists its labels in the order of their bytes. -/
theorem pairwise_encode_toList (table : MarkerTable) :
    table.toList.Pairwise fun one other => Utf8.encode one.1 < Utf8.encode other.1 := by
  have hordered : table.toList.Pairwise fun one other => compare one.1 other.1 = .lt :=
    Std.TreeMap.ordered_keys_toList
  refine hordered.imp ?_
  intro one other hlt
  exact Utf8.encode_lt_encode (compareOfLessAndEq_eq_lt.1 hlt)

/-! ## The ranges of a directory -/

/-- **The table of a directory**, told from the names of its lumps alone.  A label has a range exactly
if some lump closes it.  The range ends at the last lump that does so, and starts at the last marker
before that one, whatever label it has and whichever side it marks, or nowhere if there is none.  The
table lists exactly the labels that have a range, each of them once, in strictly ascending order of
their bytes. -/
theorem build_tells_last_ranges (directory : LumpDirectory) :
    let table := build directory
    (∀ label, (table.get? label).isSome = true ↔ ∃ id, directory.Marks id label .closing) ∧
    (∀ label range, table.get? label = some range →
      IsGreatest {id | directory.Marks id label .closing} range.finish ∧
      (∀ start, range.start = some start ↔
        IsGreatest {id | id < range.finish ∧ directory.IsMarker id} start) ∧
      (range.start = none ↔ ∀ id < range.finish, ¬ directory.IsMarker id)) ∧
    (∀ label range, (label, range) ∈ table.toList ↔ table.get? label = some range) ∧
    table.toList.Pairwise fun one other => Utf8.encode one.1 < Utf8.encode other.1 := by
  intro table
  refine ⟨?_, ?_, ?_, ?_⟩
  · intro label
    exact isSome_get?_build_iff
  · intro label range hget
    obtain ⟨hclosing, hstart⟩ := mem_toList_build_iff.1 (mem_toList_iff.2 hget)
    rw [← hstart]
    exact ⟨closing?_eq_some_iff.1 hclosing, fun start => markerBefore?_eq_some_iff,
      markerBefore?_eq_none_iff⟩
  · intro label range
    exact mem_toList_iff
  · exact pairwise_encode_toList table

/-- Markers that are nested, closed twice, and named with characters of several bytes. -/
def closedTwice : LumpDirectory :=
  ⟨(["S_START", "\uffff_END", "S_END", "😀_END", "S_END"].map
    fun name => ⟨.ofText name, 12, 0⟩).toArray⟩

/-- A label that is closed twice keeps its last range, from a marker of another label on. -/
theorem build_tells_last_ranges_closedTwice :
    (build closedTwice).get? "S" = some ⟨some 3, 4⟩ := by
  obtain ⟨hsome, hrange, -, -⟩ := build_tells_last_ranges closedTwice
  have hclosed : closedTwice.Marks 4 "S" .closing := ⟨by decide, by decide⟩
  have hother : closedTwice.IsMarker 3 := ⟨"😀", .closing, by decide, by decide⟩
  obtain ⟨⟨start, finish⟩, hget⟩ := Option.isSome_iff_exists.1 ((hsome "S").2 ⟨4, hclosed⟩)
  obtain ⟨hfinish, hstart, -⟩ := hrange "S" _ hget
  have hlast : IsGreatest {id | closedTwice.Marks id "S" .closing} 4 := by
    refine ⟨hclosed, ?_⟩
    intro id hmarks
    have hmarker := LumpDirectory.marker?_eq_some_iff.2 hmarks
    rw [← markerAt?_names] at hmarker
    exact Nat.le_of_lt_succ (lt_of_markerAt? hmarker)
  obtain rfl : finish = 4 := hfinish.unique hlast
  have hbefore : start = some 3 :=
    (hstart 3).2 ⟨⟨Nat.lt_succ_self 3, hother⟩, fun id hmarker => Nat.le_of_lt_succ hmarker.1⟩
  rw [hget, hbefore]

example : (build closedTwice).toList.map (·.1) = ["S", "\uffff", "😀"] := by decide

end MarkerTable

end WadCatalog
