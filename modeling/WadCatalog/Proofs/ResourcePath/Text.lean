import WadCatalog.ResourcePath

/-
  Addresses and their texts.

  The text of an address does not tell where its segments end: a segment may hold a `/` or be empty.
  What is certain are the pieces between the `/`s, and all that is read off a text is read off them.

  1. **The pieces of a text** are those of its segments, one segment after another (`pieces_text`).
     No segment is without a piece, so an address has no more segments than its text has pieces, and
     if there are as many, then each segment is its piece (`eq_of_flatMap_pieces`).
  2. **Reading** a text gives an address of clean segments (`isClean_of_mem_parse`), whose own text is
     the one that was read, unless there was an empty segment (`text_parse_of_root`).
-/

namespace WadCatalog

namespace Delimited

variable {α : Type}

/-- Joined pieces are the first one and the others behind a delimiter each. -/
theorem join_cons (delimiter : α) (piece : List α) (more : List (List α)) :
    join delimiter (piece :: more) = piece ++ more.flatMap (delimiter :: ·) := by
  induction more generalizing piece with
  | nil => exact (List.append_nil piece).symm
  | cons next others ih =>
    show piece ++ delimiter :: join delimiter (next :: others) = _
    rw [ih, List.flatMap_cons, List.cons_append]

variable [DecidableEq α]

/-- Lists behind a delimiter each have the pieces of all of them. -/
theorem pieces_flatMap (delimiter : α) (front : List α) (others : List (List α)) :
    pieces delimiter (front ++ others.flatMap (delimiter :: ·)) =
      pieces delimiter front ++ others.flatMap (pieces delimiter) := by
  induction others generalizing front with
  | nil => rw [List.flatMap_nil, List.append_nil, List.flatMap_nil, List.append_nil]
  | cons other rest ih =>
    rw [List.flatMap_cons, List.cons_append, pieces_append_cons, ih, List.flatMap_cons]

/-- Nothing is in a piece that was not in the list. -/
theorem mem_of_mem_pieces {delimiter x : α} {xs piece : List α}
    (h : piece ∈ pieces delimiter xs) (hx : x ∈ piece) : x ∈ xs := by
  have hjoin := join_pieces delimiter xs
  cases hpieces : pieces delimiter xs with
  | nil => exact absurd hpieces (pieces_ne_nil delimiter xs)
  | cons first more =>
    rw [hpieces] at h hjoin
    rw [join_cons] at hjoin
    rw [← hjoin]
    rcases List.mem_cons.1 h with rfl | hmore
    · exact List.mem_append_left _ hx
    · exact List.mem_append_right _
        (List.mem_flatMap.2 ⟨piece, hmore, List.mem_cons_of_mem _ hx⟩)

/-- Several lists have no fewer pieces than there are lists. -/
theorem length_le_length_flatMap_pieces (delimiter : α) (lists : List (List α)) :
    lists.length ≤ (lists.flatMap (pieces delimiter)).length := by
  induction lists with
  | nil => exact Nat.zero_le _
  | cons first rest ih =>
    have hpiece := List.length_pos_iff.2 (pieces_ne_nil delimiter first)
    rw [List.flatMap_cons, List.length_append, List.length_cons]
    omega

/-- If several lists have no more pieces than there are lists, then they are the pieces. -/
theorem eq_of_flatMap_pieces {delimiter : α} {lists others : List (List α)}
    (h : lists.flatMap (pieces delimiter) = others) (hlength : others.length = lists.length) :
    lists = others := by
  induction lists generalizing others with
  | nil => exact h
  | cons first rest ih =>
    rw [List.flatMap_cons] at h
    have hrest := length_le_length_flatMap_pieces delimiter rest
    have hpieces := congrArg List.length h
    rw [List.length_append, hlength, List.length_cons] at hpieces
    cases hfirst : pieces delimiter first with
    | nil => exact absurd hfirst (pieces_ne_nil delimiter first)
    | cons piece more =>
      rw [hfirst, List.length_cons] at hpieces
      have hnone : more = [] := List.eq_nil_of_length_eq_zero (by omega)
      subst hnone
      -- a single piece is the list itself
      have hsame : piece = first := by
        have hjoin := join_pieces delimiter first
        rw [hfirst] at hjoin
        exact hjoin
      have hothers : rest = rest.flatMap (pieces delimiter) := by
        rw [List.length_nil] at hpieces
        exact ih rfl (by omega)
      rw [hfirst, hsame, ← hothers] at h
      exact h

end Delimited

namespace ResourcePath

open Delimited

/-! ## The pieces of a text -/

/-- The text of an address, unless it is the root, starts with a `/`, and behind it come the pieces
of its segments. -/
theorem pieces_text {path : ResourcePath} (h : path.segments ≠ []) :
    pieces delimiter path.text.toList =
      [] :: path.segments.flatMap fun segment => pieces delimiter segment.toList := by
  have hpieces := Delimited.pieces_flatMap delimiter [] (path.segments.map String.toList)
  rw [List.flatMap_map, List.flatMap_map] at hpieces
  rw [text, if_neg h, String.toList_ofList]
  exact hpieces

/-- If its segments are clean, they are the pieces. -/
theorem pieces_text_of_clean {path : ResourcePath} (h : path.segments ≠ [])
    (hclean : ∀ segment ∈ path.segments, IsClean segment) :
    pieces delimiter path.text.toList = [] :: path.segments.map String.toList := by
  rw [text, if_neg h, String.toList_ofList]
  exact pieces_flatMap hclean List.not_mem_nil

/-- Two addresses of the same text and with the same number of segments are the same, if the segments
of one of them are clean. -/
theorem eq_of_text_eq {path clean : ResourcePath} (htext : path.text = clean.text)
    (hclean : ∀ segment ∈ clean.segments, IsClean segment) (hpath : path.segments ≠ [])
    (hlength : clean.segments.length = path.segments.length) : path = clean := by
  have hne : clean.segments ≠ [] := by
    intro hnil
    rw [hnil] at hlength
    exact hpath (List.eq_nil_of_length_eq_zero hlength.symm)
  have hpieces := pieces_text hpath
  rw [htext, pieces_text_of_clean hne hclean] at hpieces
  have hwords : (path.segments.map String.toList).flatMap (pieces delimiter) =
      clean.segments.map String.toList := by
    rw [List.flatMap_map]
    exact (List.cons.inj hpieces).2.symm
  have hsame : path.segments.map String.toList = clean.segments.map String.toList :=
    Delimited.eq_of_flatMap_pieces hwords (by rw [List.length_map, List.length_map, hlength])
  have hsegments : path.segments = clean.segments :=
    (List.map_inj_right fun _ _ h => String.toList_inj.1 h).1 hsame
  obtain ⟨segments⟩ := path
  obtain ⟨others⟩ := clean
  exact congrArg _ hsegments

/-! ## Reading -/

/-- The segments that are read are clean. -/
theorem isClean_of_mem_parse {text segment : String} (h : segment ∈ (parse text).segments) :
    IsClean segment := by
  obtain ⟨piece, hpiece, rfl⟩ := List.mem_map.1 h
  obtain ⟨hmem, hne⟩ := List.mem_filter.1 hpiece
  refine ⟨?_, ?_⟩
  · intro hempty
    have hnil : piece = [] := by
      rw [← String.toList_ofList (l := piece), hempty]
      rfl
    rw [hnil] at hne
    exact absurd hne (by decide)
  · rw [String.toList_ofList]
    exact not_mem_of_mem_pieces hmem

/-- That a text has an empty segment: two `/` in a row, or one at the end. -/
def HasEmptySegment (text : String) : Prop := [] ∈ (pieces delimiter text.toList).tail

instance (text : String) : Decidable (HasEmptySegment text) :=
  inferInstanceAs (Decidable ([] ∈ (pieces delimiter text.toList).tail))

/-- A text that starts at the root and has no empty segment is the text of what it is read as. -/
theorem text_parse_of_root {text : String} (hroot : text.toList.head? = some delimiter)
    (h : ¬ HasEmptySegment text) : (parse text).text = text := by
  obtain ⟨rest, hrest⟩ : ∃ rest, text.toList = delimiter :: rest := by
    cases hchars : text.toList with
    | nil => rw [hchars] at hroot; cases hroot
    | cons c rest =>
      rw [hchars] at hroot
      exact ⟨rest, by rw [Option.some.inj hroot]⟩
  have hpieces : pieces delimiter text.toList = [] :: pieces delimiter rest := by
    rw [hrest, pieces, if_pos rfl]
  have hkeep : (pieces delimiter rest).filter (· != []) = pieces delimiter rest := by
    rw [List.filter_eq_self]
    intro piece hmem
    rw [HasEmptySegment, hpieces, List.tail_cons] at h
    simpa using fun hnil : piece = [] => h (hnil ▸ hmem)
  have hsegments : (parse text).segments = (pieces delimiter rest).map String.ofList := by
    rw [parse, hpieces, List.filter_cons_of_neg (by simp), hkeep]
  have hne : (parse text).segments ≠ [] := by
    rw [hsegments]
    exact fun hnil => pieces_ne_nil delimiter rest (List.map_eq_nil_iff.1 hnil)
  have hjoin := join_pieces delimiter text.toList
  rw [hpieces, join_cons, List.nil_append] at hjoin
  rw [ResourcePath.text, if_neg hne, hsegments, List.flatMap_map]
  simp only [String.toList_ofList]
  rw [hjoin, String.ofList_toList]

example : HasEmptySegment "/GLOBAL//A" := by decide
example : ¬ HasEmptySegment "/GLOBAL/A" := by decide

end ResourcePath

end WadCatalog
