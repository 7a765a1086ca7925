import WadCatalog.ResourcePath

/-
  Addresses in any case.

  Folding to upper case touches letters only, so it moves no `/` and empties no segment.  Then it
  does not matter whether a text is folded before it is read or its segments afterwards
  (`parse_upper`), nor whether an address is folded before it is written (`text_upper`): texts that
  differ in case only are read as addresses that are written as texts that differ in case only
  (`upper_text_parse`).
-/

namespace WadCatalog

namespace Ascii

/-- Folding a character, in numbers. -/
theorem toNat_toUpper (c : Char) :
    c.toUpper.toNat = if 0x61 ≤ c.toNat ∧ c.toNat ≤ 0x7a then c.toNat - 0x20 else c.toNat := by
  by_cases hlower : 0x61 ≤ c.toNat ∧ c.toNat ≤ 0x7a
  · have hrange : 'a'.val ≤ c.val ∧ c.val ≤ 'z'.val := hlower
    have hfold : c.toUpper.val = c.val + ('A'.val - 'a'.val) := by
      delta Char.toUpper
      rw [dif_pos hrange]
    have hvalue : c.toUpper.toNat = (c.toNat + ('A'.val - 'a'.val).toNat) % 2 ^ 32 :=
      (congrArg UInt32.toNat hfold).trans (UInt32.toNat_add _ _)
    -- the distance of the cases is negative, so adding it goes once around
    have hdistance : ('A'.val - 'a'.val).toNat = 2 ^ 32 - 0x20 := by decide
    rw [hvalue, hdistance, if_pos hlower]
    omega
  · rw [if_neg hlower, show c.toUpper = c from dif_neg hlower]

/-- Only a character below the letters itself is folded to it. -/
theorem toUpper_eq_iff {target : Char} (h : target.toNat < 0x41) (c : Char) :
    c.toUpper = target ↔ c = target := by
  rw [← Char.toNat_inj, ← Char.toNat_inj, toNat_toUpper]
  split <;> omega

/-- Two texts differ at most in case if they have the same upper case. -/
theorem equalIgnoringCase_iff {a b : String} :
    equalIgnoringCase a b = true ↔ upper a = upper b := by
  rw [equalIgnoringCase, beq_iff_eq, upper, upper, String.ofList_inj]

theorem upper_eq_empty_iff {text : String} : upper text = "" ↔ text = "" := by
  rw [← String.toList_inj, ← String.toList_inj, upper, String.toList_ofList]
  exact List.map_eq_nil_iff

end Ascii

namespace Delimited

variable {α : Type} [DecidableEq α]

/-- A change of elements that makes no delimiter and unmakes none commutes with the cut. -/
theorem pieces_map {delimiter : α} {f : α → α} (hf : ∀ x, f x = delimiter ↔ x = delimiter)
    (xs : List α) : pieces delimiter (xs.map f) = (pieces delimiter xs).map (List.map f) := by
  induction xs with
  | nil => rfl
  | cons x rest ih =>
    rw [List.map_cons, pieces, pieces, ih]
    by_cases hx : x = delimiter
    · rw [if_pos ((hf x).2 hx), if_pos hx]
      rfl
    · rw [if_neg (mt (hf x).1 hx), if_neg hx]
      cases pieces delimiter rest with
      | nil => rfl
      | cons piece more => rfl

end Delimited

namespace ResourcePath

/-- Only the `/` itself is folded to a `/`. -/
theorem toUpper_eq_delimiter_iff (c : Char) : c.toUpper = delimiter ↔ c = delimiter :=
  Ascii.toUpper_eq_iff (by decide) c

/-- The segment in upper case is as clean as it was. -/
theorem IsClean.upper {segment : String} (h : IsClean segment) :
    IsClean (Ascii.upper segment) := by
  refine ⟨mt Ascii.upper_eq_empty_iff.1 h.1, ?_⟩
  intro hmem
  rw [Ascii.upper, String.toList_ofList] at hmem
  obtain ⟨c, hc, hslash⟩ := List.mem_map.1 hmem
  exact h.2 ((toUpper_eq_delimiter_iff c).1 hslash ▸ hc)

/-- The address with its segments in upper case. -/
def upper (path : ResourcePath) : ResourcePath := ⟨path.segments.map Ascii.upper⟩

/-- Reading a text in upper case is reading it, in upper case. -/
theorem parse_upper (text : String) : parse (Ascii.upper text) = (parse text).upper := by
  have hpieces := Delimited.pieces_map toUpper_eq_delimiter_iff text.toList
  have hkeep : ((· != []) ∘ List.map Char.toUpper : List Char → Bool) = (· != []) := by
    funext piece
    cases piece with
    | nil => rfl
    | cons c rest => rfl
  have hsegment : String.ofList ∘ List.map Char.toUpper = Ascii.upper ∘ String.ofList := by
    funext piece
    show _ = String.ofList ((String.ofList piece).toList.map Char.toUpper)
    rw [String.toList_ofList]
    rfl
  rw [parse, parse, upper, Ascii.upper, String.toList_ofList, hpieces, List.filter_map, hkeep,
    List.map_map, List.map_map, hsegment]

/-- The text of an address in upper case is its text in upper case. -/
theorem text_upper (path : ResourcePath) : path.upper.text = Ascii.upper path.text := by
  obtain ⟨segments⟩ := path
  cases segments with
  | nil => decide
  | cons first rest =>
    have hfold : ∀ segment : String, delimiter :: (Ascii.upper segment).toList =
        (delimiter :: segment.toList).map Char.toUpper := by
      intro segment
      rw [Ascii.upper, String.toList_ofList, List.map_cons]
      rfl
    rw [upper, text, text, if_neg (by simp), if_neg (List.cons_ne_nil _ _), Ascii.upper,
      String.toList_ofList, List.map_flatMap, List.flatMap_map]
    simp only [hfold]

/-- Texts that differ in case only are read as addresses whose texts differ in case only. -/
theorem upper_text_parse {a b : String} (h : Ascii.equalIgnoringCase a b = true) :
    Ascii.upper (parse a).text = Ascii.upper (parse b).text := by
  calc Ascii.upper (parse a).text
    _ = (parse a).upper.text := (text_upper _).symm
    _ = (parse (Ascii.upper a)).text := by rw [parse_upper]
    _ = (parse (Ascii.upper b)).text := by rw [Ascii.equalIgnoringCase_iff.1 h]
    _ = (parse b).upper.text := by rw [parse_upper]
    _ = Ascii.upper (parse b).text := text_upper _

end ResourcePath

end WadCatalog
