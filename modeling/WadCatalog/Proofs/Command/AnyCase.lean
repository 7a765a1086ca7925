import WadCatalog.Proofs.Command.Extraction
import WadCatalog.Proofs.ResourcePath.Case

/-
  Asking an archive in any case.

  A request is looked up twice, segment by segment as it is and then by its text in any case, and the
  two searches go through different tables in different directions.  For an archive they amount to one
  search, which sees of the request only the upper case of its text (`extract_eq`).  So two requests
  that differ in case only end at the same resource, or at none (`extract_any_case`).
-/

namespace WadCatalog.Command

variable {disk : Disk} {path : FilePath}

/-- **Case does not matter.**  Two requests to an archive that differ at most in the case of ASCII
letters give the same bytes, or there is no resource at the address for either. -/
theorem extract_any_case (hkind : ContainerKind.detect disk path = .wad) (config : Config)
    {request other : String} (hsame : Ascii.equalIgnoringCase request other = true) :
    (∃ bytes, extract disk config path request = .ok bytes ∧
      extract disk config path other = .ok bytes) ∨
    (extract disk config path request = .error (.invalidPath (ResourcePath.parse request)) ∧
      extract disk config path other = .error (.invalidPath (ResourcePath.parse other))) := by
  obtain ⟨file, content, hopen⟩ := exists_openFile hkind
  obtain ⟨archive, harchive, hpublished⟩ := exists_isPublished hkind config hopen
  have hwanted := ResourcePath.upper_text_parse hsame
  rw [extract_eq harchive hpublished, extract_eq harchive hpublished, hwanted]
  cases (openFresh disk config path).2.lastPrinted?
    (Ascii.upper (ResourcePath.parse other).text) with
  | some entry => exact .inl ⟨_, rfl, rfl⟩
  | none => exact .inr ⟨rfl, rfl⟩

/-- Asked for with two `/`s in a row, the archive gives the lump `A` in any case, though the address of
its lump `/A` is printed so. -/
theorem extract_any_case_slash :
    ContainerKind.detect slashDisk slashPath = .wad ∧
      Ascii.equalIgnoringCase "/Global//a" "/GLOBAL//A" = true ∧
      extract slashDisk {} slashPath "/Global//a" = .ok [1] ∧
      extract slashDisk {} slashPath "/GLOBAL//A" = .ok [1] := by
  have hkind : ContainerKind.detect slashDisk slashPath = .wad := by decide +kernel
  have hsame : Ascii.equalIgnoringCase "/Global//a" "/GLOBAL//A" = true := by decide
  have hgiven : (extract slashDisk {} slashPath "/GLOBAL//A").toOption = some [1] := by
    decide +kernel
  rcases extract_any_case hkind {} hsame with ⟨bytes, hrequest, hother⟩ | ⟨-, hother⟩
  · rw [hother] at hgiven
    cases Option.some.inj hgiven
    exact ⟨hkind, hsame, hrequest, hother⟩
  · rw [hother] at hgiven
    cases hgiven

end WadCatalog.Command
