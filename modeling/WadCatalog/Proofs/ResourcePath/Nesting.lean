import WadCatalog.Proofs.ResourcePath.Text

/-
  What the texts of addresses tell about the addresses.

  An address is a list of segments, and its text a list of characters.  Whatever is asked of addresses
  may be asked of their texts instead, as long as the segments are clean:

  1. **Being an address.**  The addresses of clean segments are exactly those that their text gives
     back (`parse_text_iff`), and all that is read from texts is of this kind.
  2. **Being put together.**  Two texts with a `/` between them are read one after the other, whatever
     they are (`segments_parse_append`).
  3. **Lying in a directory.**  The text of an address goes on from that of a directory above it with a
     `/`, so `/MAPS/MAP011` does not lie in `/MAPS/MAP01` (`isUnder_iff_text`).  The root is a case of
     its own: it is written as a `/`, and no text goes on from it with another one.
-/

namespace WadCatalog.ResourcePath

/-! ## Being an address -/

/-- An address is read back from its text exactly if its segments are clean. -/
theorem parse_text_iff {path : ResourcePath} :
    parse path.text = path ↔ ∀ segment ∈ path.segments, IsClean segment := by
  constructor
  · intro h segment hsegment
    rw [← h] at hsegment
    exact isClean_of_mem_parse hsegment
  · exact parse_text

/-! ## Being put together -/

/-- A `/` between two texts separates what is read of them. -/
theorem segments_parse_append (front back : String) :
    (parse (front ++ "/" ++ back)).segments = (parse front).segments ++ (parse back).segments := by
  have hchars : (front ++ "/" ++ back).toList = front.toList ++ delimiter :: back.toList := by
    rw [String.toList_append, String.toList_append, List.append_assoc]
    rfl
  rw [parse, hchars, Delimited.pieces_append_cons, List.filter_append, List.map_append]
  rfl

/-! ## Lying in a directory -/

theorem isUnder_iff {path above : ResourcePath} :
    path.isUnder above = true ↔ ∃ more, above.segments ++ more = path.segments :=
  List.isPrefixOf_iff_prefix

/-- Below a directory that is not the root, the text of an address is that of the directory, a `/` and
something else. -/
theorem text_of_segments_append {path above : ResourcePath} (habove : above.segments ≠ [])
    {segment : String} {more : List String}
    (h : path.segments = above.segments ++ segment :: more) :
    path.text = above.text ++ "/" ++
      String.ofList (segment.toList ++ more.flatMap fun other => delimiter :: other.toList) := by
  have hpath : path.segments ≠ [] := by
    rw [h]
    exact List.append_ne_nil_of_left_ne_nil habove _
  rw [text, text, if_neg hpath, if_neg habove, h, ← String.toList_inj]
  simp only [String.toList_append, String.toList_ofList, List.flatMap_append, List.flatMap_cons,
    List.append_assoc]
  rfl

/-- **Lying in a directory.**  Of two addresses with clean segments, the one lies in the other exactly
if the other is the root, or they have the same text, or the text of the one goes on from that of the
other with a `/`. -/
theorem isUnder_iff_text {path above : ResourcePath}
    (hpath : ∀ segment ∈ path.segments, IsClean segment)
    (habove : ∀ segment ∈ above.segments, IsClean segment) :
    path.isUnder above = true ↔
      above = root ∨ path.text = above.text ∨ ∃ rest, path.text = above.text ++ "/" ++ rest := by
  rw [isUnder_iff]
  constructor
  · rintro ⟨more, hmore⟩
    by_cases hroot : above.segments = []
    · exact .inl (congrArg ResourcePath.mk hroot)
    cases more with
    | nil =>
      rw [List.append_nil] at hmore
      exact .inr (.inl (congrArg (fun segments => text ⟨segments⟩) hmore.symm))
    | cons segment others => exact .inr (.inr ⟨_, text_of_segments_append hroot hmore.symm⟩)
  · rintro (rfl | htext | ⟨rest, htext⟩)
    · exact ⟨path.segments, rfl⟩
    · -- both are read back from the one text
      have hsame : path = above := by
        rw [← parse_text hpath, htext, parse_text habove]
      exact ⟨[], by rw [hsame, List.append_nil]⟩
    · refine ⟨(parse rest).segments, ?_⟩
      rw [← parse_text hpath, htext, segments_parse_append, parse_text habove]

/-- **Texts and addresses.**  An address is read back from its text exactly if no segment is empty or
holds a `/`.  What is read from any text is read back from its own text.  Two texts with a `/` between
them have the segments of the first and then those of the second.  And of two addresses without such
segments, the first lies in the second exactly if the second is the root, or both have one text, or the
text of the first goes on from that of the second with a `/`. -/
theorem texts_tell_addresses :
    (∀ path : ResourcePath, parse path.text = path ↔
      ∀ segment ∈ path.segments, segment ≠ "" ∧ '/' ∉ segment.toList) ∧
    (∀ text : String, parse (parse text).text = parse text) ∧
    (∀ front back : String, (parse (front ++ "/" ++ back)).segments =
      (parse front).segments ++ (parse back).segments) ∧
    ∀ path above : ResourcePath,
      (∀ segment ∈ path.segments, segment ≠ "" ∧ '/' ∉ segment.toList) →
      (∀ segment ∈ above.segments, segment ≠ "" ∧ '/' ∉ segment.toList) →
      (path.isUnder above = true ↔
        above = root ∨ path.text = above.text ∨ ∃ rest, path.text = above.text ++ "/" ++ rest) := by
  refine ⟨?_, ?_, ?_, ?_⟩
  · intro path
    exact parse_text_iff
  · intro text
    exact parse_text fun segment hsegment => isClean_of_mem_parse hsegment
  · exact segments_parse_append
  · intro path above hpath habove
    exact isUnder_iff_text hpath habove

/-- The text of `/MAPS/MAP011` starts as that of `/MAPS/MAP01` does, and still goes on without a `/`. -/
theorem texts_tell_addresses_neighbours :
    (∀ segment ∈ ["MAPS", "MAP011"], segment ≠ "" ∧ '/' ∉ segment.toList) ∧
      (∀ segment ∈ ["MAPS", "MAP01"], segment ≠ "" ∧ '/' ∉ segment.toList) ∧
      (∀ rest, text ⟨["MAPS", "MAP011"]⟩ ≠ text ⟨["MAPS", "MAP01"]⟩ ++ "/" ++ rest) ∧
      ∃ rest, text ⟨["MAPS", "MAP01", "THINGS"]⟩ = text ⟨["MAPS", "MAP01"]⟩ ++ "/" ++ rest := by
  obtain ⟨-, -, -, hunder⟩ := texts_tell_addresses
  have hmap : ∀ segment ∈ ["MAPS", "MAP01"], segment ≠ "" ∧ '/' ∉ segment.toList := by decide
  have hneighbour : ∀ segment ∈ ["MAPS", "MAP011"], segment ≠ "" ∧ '/' ∉ segment.toList := by
    decide
  have hthings : ∀ segment ∈ ["MAPS", "MAP01", "THINGS"], segment ≠ "" ∧ '/' ∉ segment.toList := by
    decide
  refine ⟨hneighbour, hmap, ?_, ?_⟩
  · intro rest hrest
    have hinside := (hunder ⟨_⟩ ⟨_⟩ hneighbour hmap).2 (.inr (.inr ⟨rest, hrest⟩))
    exact absurd hinside (by decide)
  · rcases (hunder ⟨_⟩ ⟨_⟩ hthings hmap).1 (by decide) with hroot | htext | hrest
    · exact absurd hroot (by decide)
    · exact absurd htext (by decide)
    · exact hrest

end WadCatalog.ResourcePath
