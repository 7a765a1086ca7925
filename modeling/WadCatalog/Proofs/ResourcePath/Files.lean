import Mathlib.Data.List.TakeDrop
import Mathlib.Data.List.TakeWhile
import WadCatalog.Container.Tree
import WadCatalog.Proofs.Disk.Resolution
import WadCatalog.Proofs.ResourcePath.Case
import WadCatalog.Proofs.ResourcePath.Text
import WadCatalog.Proofs.Text.Encoding

/-
  The addresses of files.

  A file name goes a long way before it ends up in an address.  Its bytes are read as text,
  extensions are taken off, and what is left is written as bytes again, cut at eight of them, folded,
  and read as text once more.  The bytes need not be well-formed, and the cut may go through a
  character.  All the same, nothing on that way leaves an empty segment or makes a `/`:

  1. **A name as text** (`IsFileName.isFileSegment`).  Text has the ASCII characters of its bytes and
     no others, so it has no `/` and no zero character if the name has no such byte.
  2. **A name of a lump** (`LumpName.isClean_text_ofText`).  The cut is at the first zero byte, and
     there is none, so the first byte stays; and only a `/` is folded to a `/`.
  3. **An address** (`ResourcePath.isClean_of_ofFile?`).  Folding the directories above a file leaves
     their segments clean, and the name of a script stays as it is.
-/

namespace WadCatalog

/-! ## What files are called -/

/-- Nothing is in the part before the last delimiter that was not in the list. -/
theorem Delimited.mem_of_splitLast? {α : Type} [DecidableEq α] {delimiter x : α}
    {xs before after : List α} (h : splitLast? delimiter xs = some (before, after))
    (hx : x ∈ before) : x ∈ xs := by
  unfold splitLast? at h
  rw [List.span_eq_takeWhile_dropWhile] at h
  cases hdrop : xs.reverse.dropWhile (· != delimiter) with
  | nil =>
    simp only [hdrop] at h
    cases h
  | cons first rest =>
    simp only [hdrop] at h
    cases h
    have hmem : x ∈ xs.reverse.dropWhile (· != delimiter) := by
      rw [hdrop]
      exact List.mem_cons_of_mem _ (List.mem_reverse.1 hx)
    exact List.mem_reverse.1 ((List.dropWhile_sublist _).subset hmem)

namespace FilePath

/-- What a file on a disk can be called. -/
structure IsFileName (name : Bytes) : Prop extends IsPiece name where
  zero_not_mem : 0 ∉ name

/-- A part that names an entry is a piece of the path. -/
theorem isPiece_of_named_mem {path : FilePath} {name : Bytes} (h : .named name ∈ path.components) :
    IsPiece name ∧ ∀ byte ∈ name, byte ∈ path.bytes := by
  rcases List.mem_append.1 h with hfront | hpieces
  · split at hfront
    · cases List.mem_singleton.1 hfront
    · split at hfront
      · cases List.mem_singleton.1 hfront
      · cases hfront
  · obtain ⟨piece, hpiece, hcomponent⟩ := List.mem_filterMap.1 hpieces
    unfold component? at hcomponent
    split at hcomponent
    next => cases hcomponent
    next hne =>
      split at hcomponent
      next => cases hcomponent
      next =>
        cases hcomponent
        exact ⟨⟨fun hnil => hne (.inl hnil), Delimited.not_mem_of_mem_pieces hpiece⟩,
          fun _ => Delimited.mem_of_mem_pieces hpiece⟩

/-- The base name of a path without zero bytes is one. -/
theorem isFileName_of_fileName? {path : FilePath} (hzero : 0 ∉ path.bytes) {name : Bytes}
    (h : path.fileName? = some name) : IsFileName name := by
  have hlast : path.components.getLast? = some (.named name) := by
    unfold fileName? at h
    split at h
    next other hother =>
      rw [hother, Option.some.inj h]
    next => cases h
  obtain ⟨hpiece, hbytes⟩ := isPiece_of_named_mem (List.mem_of_getLast? hlast)
  exact ⟨hpiece, fun hmem => hzero (hbytes 0 hmem)⟩

/-- Without its extension it still is one: a `.` at the very front belongs to the stem. -/
theorem IsFileName.stem {name : Bytes} (h : IsFileName name) :
    IsFileName (splitExtension name).1 := by
  unfold splitExtension
  split
  next => exact h
  next => exact h
  next stem extension hne hsplit =>
    exact ⟨⟨hne, fun hmem => h.separator_not_mem (Delimited.mem_of_splitLast? hsplit hmem)⟩,
      fun hmem => h.zero_not_mem (Delimited.mem_of_splitLast? hsplit hmem)⟩

end FilePath

/-! ## Names as text -/

namespace ResourcePath

/-- A clean segment that also has no zero character, which would end the name of a lump. -/
structure IsFileSegment (segment : String) : Prop where
  isClean : IsClean segment
  zero_not_mem : '\x00' ∉ segment.toList

end ResourcePath

open ResourcePath

/-- What a file is called reads as such a segment. -/
theorem FilePath.IsFileName.isFileSegment {name : Bytes} (h : IsFileName name) :
    IsFileSegment (Utf8.decodeLossy name) := by
  refine ⟨⟨Utf8.decodeLossy_ne_empty h.ne_nil, ?_⟩, ?_⟩
  · exact fun hmem => h.separator_not_mem (Utf8.mem_of_mem_decodeLossy hmem (by decide))
  · exact fun hmem => h.zero_not_mem (Utf8.mem_of_mem_decodeLossy hmem (by decide))

/-! ## Names of lumps -/

namespace LumpName

/-- Without a zero byte, names are only cut at their width. -/
theorem cut_eq_take {raw : Bytes} (h : 0 ∉ raw) : cut raw = raw.take width := by
  rw [cut, List.takeWhile_eq_self_iff]
  intro byte hbyte
  simpa using fun hzero : byte = 0 => h (hzero ▸ List.mem_of_mem_take hbyte)

/-- A lump that is named after a segment has a name that is clean as text. -/
theorem isClean_text_ofText {segment : String} (h : IsFileSegment segment) :
    IsClean (ofText segment).text := by
  have hzero : 0 ∉ Utf8.encode segment :=
    fun hmem => h.zero_not_mem (Utf8.mem_of_mem_encode hmem (by decide))
  have htrimmed : (ofText segment).trimmed =
      ((Utf8.encode segment).take width).map Ascii.upperByte := by
    rw [← cut_eq_take hzero]
    rfl
  constructor
  · refine Utf8.decodeLossy_ne_empty ?_
    obtain ⟨byte, rest, hbytes⟩ :=
      List.exists_cons_of_ne_nil (Utf8.encode_ne_nil h.isClean.1)
    rw [htrimmed, hbytes]
    exact List.cons_ne_nil _ _
  · intro hmem
    have hbyte : FilePath.separator ∈ (ofText segment).trimmed :=
      Utf8.mem_of_mem_decodeLossy hmem (by decide)
    rw [htrimmed] at hbyte
    obtain ⟨byte, hsource, hfold⟩ := List.mem_map.1 hbyte
    rw [(Ascii.upperByte_eq_iff (by decide) byte).1 hfold] at hsource
    exact h.isClean.2 (Utf8.mem_of_mem_encode (List.mem_of_mem_take hsource) (by decide))

example : (ofText "straßeö").text = "STRAßE\ufffd" := by decide

/-- So has a file of a tree, if a name is left for it. -/
theorem isClean_text_of_ofFileName? {fileName : String} (h : IsFileSegment fileName)
    {name : LumpName} (hname : ofFileName? fileName = some name) : IsClean name.text := by
  have hsubset : ∀ c ∈ (beforeFirstDot fileName).toList, c ∈ fileName.toList := by
    intro c hc
    rw [beforeFirstDot, String.toList_ofList] at hc
    exact (List.takeWhile_sublist _).subset hc
  unfold ofFileName? at hname
  simp only at hname
  split at hname
  next => cases hname
  next hne =>
    rw [← Option.some.inj hname]
    exact isClean_text_ofText ⟨⟨hne, fun hmem => h.isClean.2 (hsubset _ hmem)⟩,
      fun hmem => h.zero_not_mem (hsubset _ hmem)⟩

/-- And so has a file that is known by its path. -/
theorem isClean_text_of_ofPath? {path : FilePath} (hzero : 0 ∉ path.bytes) {name : LumpName}
    (hname : ofPath? path = some name) : IsClean name.text := by
  obtain ⟨stem, hstem, rfl⟩ := Option.map_eq_some_iff.1 hname
  obtain ⟨base, hbase, rfl⟩ := Option.map_eq_some_iff.1 hstem
  exact isClean_text_ofText (FilePath.isFileName_of_fileName? hzero hbase).stem.isFileSegment

end LumpName

/-! ## Addresses -/

namespace ResourcePath

/-- An address below one of clean segments has clean segments if its own one is. -/
theorem isClean_join {above : ResourcePath} {last : String}
    (habove : ∀ segment ∈ above.segments, IsClean segment) (hlast : IsClean last) :
    ∀ segment ∈ (above.join last).segments, IsClean segment := by
  intro segment hsegment
  rcases List.mem_append.1 hsegment with hinside | hsame
  · exact habove segment hinside
  · rw [List.mem_singleton.1 hsame]
    exact hlast

/-- **An address.**  The address of the file that some names lead to has clean segments. -/
theorem isClean_of_ofFile? {config : Config} {names : List String}
    (hnames : ∀ name ∈ names, IsFileSegment name) {path : ResourcePath}
    (hpath : ofFile? config names = some path) :
    ∀ segment ∈ path.segments, IsClean segment := by
  unfold ofFile? at hpath
  cases hlast : names.getLast? with
  | none =>
    rw [hlast] at hpath
    cases hpath
  | some fileName =>
    have hfile := hnames fileName (List.mem_of_getLast? hlast)
    have habove : ∀ segment ∈ names.dropLast.map Ascii.upper, IsClean segment := by
      intro segment hsegment
      obtain ⟨name, hname, rfl⟩ := List.mem_map.1 hsegment
      exact (hnames name (List.dropLast_subset _ hname)).isClean.upper
    rw [hlast] at hpath
    simp only at hpath
    -- below the scripts directory, then anywhere else
    split at hpath
    · split at hpath
      · cases hpath
      · cases hpath
        exact isClean_join habove hfile.isClean
    · obtain ⟨name, hname, rfl⟩ := Option.map_eq_some_iff.1 hpath
      exact isClean_join habove (LumpName.isClean_text_of_ofFileName? hfile hname)

end ResourcePath

end WadCatalog
