import Mathlib.Data.List.Forall2
import WadCatalog.Proofs.ResourcePath.Files

/-
  How the address of a file depends on the spelling of its path.

  Directories are folded to upper case, the scripts are recognised in any case, and a file outside of
  the scripts is named by what is before its first `.`, cut and folded.  So many paths have one address.
  Which ones is told in three steps:

  1. **Case** (`LumpName.ofText_upper`).  Names are folded byte by byte, after the text was written as
     bytes and cut at eight of them, perhaps through a character.  Folding the text first comes to the
     same, since the bytes of a character beyond ASCII are never folded.
  2. **Before the first `.`** (`LumpName.ofFileName?_congr`).  Nothing else of a file name counts, and
     nothing is left exactly if the name starts with a `.`.
  3. **Below the scripts** (`ofFile?_of_inScripts`).  There the file name is kept as it is, at any depth.

  What is said of paths is said of their parts: a path may also have separators too many, which count
  for nothing (`FilePath.Spells`).
-/

namespace WadCatalog

/-! ## Case -/

namespace Ascii

/-- The bytes of a character are folded as the character is. -/
theorem utf8EncodeChar_toUpper (c : Char) :
    String.utf8EncodeChar c.toUpper = (String.utf8EncodeChar c).map upperByte := by
  have hfold := toNat_toUpper c
  by_cases hascii : c.toNat < 0x80
  · have hascii' : c.toUpper.toNat < 0x80 := by
      split at hfold <;> omega
    rw [Utf8.utf8EncodeChar_of_ascii hascii, Utf8.utf8EncodeChar_of_ascii hascii',
      List.map_singleton]
    refine congrArg (fun byte => [byte]) (UInt8.toNat_inj.1 ?_)
    rw [toNat_upperByte, Utf8.toNat_byte hascii, Utf8.toNat_byte hascii', hfold]
  · have hsame : c.toUpper = c := by
      rw [← Char.toNat_inj, hfold]
      split <;> omega
    have hbytes : ∀ byte ∈ String.utf8EncodeChar c, upperByte byte = byte := by
      intro byte hmem
      rw [Utf8.utf8EncodeChar_eq] at hmem
      have hbeyond : ¬ byte.toNat < 0x80 := by
        intro hlow
        rw [Utf8.eq_of_mem_bytesOf (Utf8.toNat_lt c) hmem hlow] at hlow
        exact hascii hlow
      exact upperByte_eq_self_iff.2 fun hlower => hbeyond (Nat.lt_of_le_of_lt hlower.2 (by decide))
    rw [hsame, List.map_congr_left hbytes, List.map_id']

/-- The bytes of a text in upper case are its bytes in upper case. -/
theorem encode_upper (text : String) :
    Utf8.encode (upper text) = (Utf8.encode text).map upperByte := by
  rw [Utf8.encode, upper, String.toList_ofList, Utf8.encode, List.flatMap_map, List.map_flatMap]
  exact List.flatMap_congr fun c _ => utf8EncodeChar_toUpper c

/-- Texts that differ at most in case, one by one, have the same upper cases. -/
theorem map_upper_eq {texts others : List String}
    (h : List.Forall₂ (fun a b => equalIgnoringCase a b = true) texts others) :
    texts.map upper = others.map upper := by
  have hsame : List.Forall₂ (· = ·) (texts.map upper) (others.map upper) :=
    List.forall₂_map_left_iff.2
      (List.forall₂_map_right_iff.2 (h.imp fun _ _ hcase => equalIgnoringCase_iff.1 hcase))
  rwa [List.forall₂_eq_eq_eq] at hsame

end Ascii

namespace LumpName

/-- Folding moves no terminator, so it does not matter whether a raw name is folded before. -/
theorem ofRaw_map_upperByte (raw : Bytes) : ofRaw (raw.map Ascii.upperByte) = ofRaw raw := by
  have hkeep : ((· != 0) ∘ Ascii.upperByte : UInt8 → Bool) = (· != 0) := by
    funext byte
    rw [Bool.eq_iff_iff]
    simp [Ascii.upperByte_eq_zero_iff]
  have hcut : cut (raw.map Ascii.upperByte) = (cut raw).map Ascii.upperByte := by
    rw [cut, ← List.map_take, List.takeWhile_map, hkeep]
    rfl
  apply LumpName.ext
  show (cut (raw.map Ascii.upperByte)).map Ascii.upperByte = (cut raw).map Ascii.upperByte
  rw [hcut, List.map_map]
  exact List.map_congr_left fun byte _ => Ascii.upperByte_upperByte byte

/-- **Case.**  A name does not depend on the case of the text it is made from. -/
theorem ofText_upper (text : String) : ofText (Ascii.upper text) = ofText text := by
  rw [ofText, Ascii.encode_upper, ofRaw_map_upperByte]
  rfl

/-! ## Before the first `.` -/

/-- What is before the first `.` of a name is folded with it. -/
theorem beforeFirstDot_upper (fileName : String) :
    beforeFirstDot (Ascii.upper fileName) = Ascii.upper (beforeFirstDot fileName) := by
  have hdot : ∀ c : Char, c.toUpper = '.' ↔ c = '.' := Ascii.toUpper_eq_iff (by decide)
  have hkeep : ((· != '.') ∘ Char.toUpper : Char → Bool) = (· != '.') := by
    funext c
    rw [Bool.eq_iff_iff]
    simp [hdot]
  rw [beforeFirstDot, Ascii.upper, String.toList_ofList, List.takeWhile_map, hkeep, Ascii.upper,
    beforeFirstDot, String.toList_ofList]

/-- What is behind the first `.` of a name does not count. -/
theorem beforeFirstDot_append {stem : String} (h : '.' ∉ stem.toList) (rest : String) :
    beforeFirstDot (stem ++ "." ++ rest) = stem := by
  have hkeep : ∀ c ∈ stem.toList, (c != '.') = true := by
    intro c hc
    simpa using fun hdot : c = '.' => h (hdot ▸ hc)
  have hchars : (stem ++ "." ++ rest).toList = stem.toList ++ '.' :: rest.toList := by
    rw [String.toList_append, String.toList_append, List.append_assoc]
    rfl
  rw [beforeFirstDot, hchars, List.takeWhile_append_of_pos hkeep]
  simp

/-- Nothing is before the first `.` exactly if the name starts with it. -/
theorem beforeFirstDot_eq_empty_iff {fileName : String} (h : fileName ≠ "") :
    beforeFirstDot fileName = "" ↔ ∃ rest, fileName = "." ++ rest := by
  constructor
  · intro hempty
    cases hchars : fileName.toList with
    | nil => exact absurd (String.toList_eq_nil_iff.1 hchars) h
    | cons c rest =>
      have hdot : c = '.' := by
        by_contra hne
        have hstem := congrArg String.toList hempty
        rw [beforeFirstDot, String.toList_ofList, hchars,
          List.takeWhile_cons_of_pos (by simpa using hne)] at hstem
        cases hstem
      refine ⟨String.ofList rest, ?_⟩
      rw [← String.toList_inj, hchars, hdot, String.toList_append, String.toList_ofList (l := rest)]
      rfl
  · rintro ⟨rest, rfl⟩
    have hstem : beforeFirstDot ("" ++ "." ++ rest) = "" := beforeFirstDot_append (by decide) rest
    rwa [String.empty_append] at hstem

/-- A file name is left for a lump unless it starts with a `.`. -/
theorem ofFileName?_eq_none_iff {fileName : String} (h : fileName ≠ "") :
    ofFileName? fileName = none ↔ ∃ rest, fileName = "." ++ rest := by
  rw [← beforeFirstDot_eq_empty_iff h, ofFileName?]
  simp

/-- The lump is named after what is before the first `.`. -/
theorem eq_of_ofFileName? {fileName : String} {name : LumpName}
    (h : ofFileName? fileName = some name) : name = ofText (beforeFirstDot fileName) := by
  rw [ofFileName?] at h
  split at h
  · cases h
  · exact (Option.some.inj h).symm

/-- **Before the first `.`.**  Files whose names differ at most in case before the first `.` have one
name as lumps. -/
theorem ofFileName?_congr {one other : String}
    (h : Ascii.upper (beforeFirstDot one) = Ascii.upper (beforeFirstDot other)) :
    ofFileName? one = ofFileName? other := by
  have hname : ofText (beforeFirstDot one) = ofText (beforeFirstDot other) := by
    rw [← ofText_upper, h, ofText_upper]
  have hempty : beforeFirstDot one = "" ↔ beforeFirstDot other = "" := by
    rw [← Ascii.upper_eq_empty_iff, h, Ascii.upper_eq_empty_iff]
  simp only [ofFileName?, hname, hempty]

end LumpName

/-! ## Paths by their parts -/

namespace FilePath

/-- That a path is made of the given names, one part for each; such a path is relative. -/
def Spells (path : FilePath) (names : List String) : Prop :=
  path.components = names.map fun name => .named (Utf8.encode name)

instance (path : FilePath) (names : List String) : Decidable (path.Spells names) :=
  inferInstanceAs (Decidable (path.components = _))

variable {path : FilePath} {names : List String}

/-- The parts of such a path read as the names. -/
theorem Spells.texts (h : path.Spells names) : path.components.map Component.text = names := by
  have htext : Component.text ∘ (fun name => .named (Utf8.encode name)) = id := by
    funext name
    exact Utf8.decodeLossy_encode name
  rw [h, List.map_map, htext, List.map_id]

/-- None of the names is empty. -/
theorem Spells.ne_empty (h : path.Spells names) {name : String} (hname : name ∈ names) :
    name ≠ "" := by
  have hmem : .named (Utf8.encode name) ∈ path.components := h ▸ List.mem_map_of_mem hname
  rintro rfl
  exact (isPiece_of_named_mem hmem).1.ne_nil rfl

/-- If the path has no zero byte, then each of the names can be a segment of its own. -/
theorem Spells.isFileSegment (h : path.Spells names) (hzero : 0 ∉ path.bytes) {name : String}
    (hname : name ∈ names) : ResourcePath.IsFileSegment name := by
  have hmem : .named (Utf8.encode name) ∈ path.components := h ▸ List.mem_map_of_mem hname
  obtain ⟨hpiece, hbytes⟩ := isPiece_of_named_mem hmem
  have hfile : IsFileName (Utf8.encode name) := ⟨hpiece, fun hmem => hzero (hbytes 0 hmem)⟩
  rw [← Utf8.decodeLossy_encode name]
  exact hfile.isFileSegment

end FilePath

/-! ## Addresses -/

/-- That the first of the directories is the one of the scripts, in any case. -/
def Config.InScripts (config : Config) (directories : List String) : Prop :=
  ∃ first, directories.head? = some first ∧
    Ascii.equalIgnoringCase first config.scriptsDirectory = true

namespace ResourcePath

open FilePath (Spells)

variable {config : Config} {directories : List String} {fileName : String}

theorem any_head?_iff_inScripts :
    directories.head?.any (Ascii.equalIgnoringCase · config.scriptsDirectory) = true ↔
      config.InScripts directories := by
  rw [Option.any_eq_true]
  rfl

/-- **Below the scripts**, a file keeps its name. -/
theorem ofFile?_of_inScripts (h : config.InScripts directories) (hname : fileName ≠ "") :
    ofFile? config (directories ++ [fileName]) =
      some ⟨directories.map Ascii.upper ++ [fileName]⟩ := by
  rw [ofFile?, List.getLast?_concat, List.dropLast_concat]
  simp only
  rw [if_pos (any_head?_iff_inScripts.2 h), if_neg hname]
  rfl

/-- Anywhere else it is named like a lump. -/
theorem ofFile?_of_not_inScripts (h : ¬ config.InScripts directories) :
    ofFile? config (directories ++ [fileName]) = (LumpName.ofFileName? fileName).map fun name =>
      ⟨directories.map Ascii.upper ++ [name.text]⟩ := by
  rw [ofFile?, List.getLast?_concat, List.dropLast_concat]
  simp only
  rw [if_neg (mt any_head?_iff_inScripts.1 h)]
  rfl

/-- The scripts are recognised by the upper case of the first directory. -/
theorem inScripts_iff : config.InScripts directories ↔
    (directories.map Ascii.upper).head? = some (Ascii.upper config.scriptsDirectory) := by
  rw [List.head?_map, Option.map_eq_some_iff, Config.InScripts]
  simp only [Ascii.equalIgnoringCase_iff]

variable {path : FilePath}

theorem ofFilePath?_eq (h : path.Spells (directories ++ [fileName])) :
    ofFilePath? config path = ofFile? config (directories ++ [fileName]) := by
  rw [ofFilePath?, h.texts]

/-- There is no address exactly for a file outside of the scripts whose name starts with a `.`. -/
theorem ofFile?_eq_none_iff (hname : fileName ≠ "") :
    ofFile? config (directories ++ [fileName]) = none ↔
      ¬ config.InScripts directories ∧ ∃ rest, fileName = "." ++ rest := by
  by_cases hscripts : config.InScripts directories
  · rw [ofFile?_of_inScripts hscripts hname]
    simp [hscripts]
  · rw [ofFile?_of_not_inScripts hscripts, Option.map_eq_none_iff,
      LumpName.ofFileName?_eq_none_iff hname]
    simp [hscripts]

/-- An address has one segment for each part of the path, with the directories in upper case.  Outside
of the scripts, the last one is named after what is before the first `.`. -/
theorem exists_segments_of_ofFile? (hname : fileName ≠ "") {address : ResourcePath}
    (h : ofFile? config (directories ++ [fileName]) = some address) :
    ∃ last, address.segments = directories.map Ascii.upper ++ [last] ∧
      (¬ config.InScripts directories →
        last = (LumpName.ofText (LumpName.beforeFirstDot fileName)).text) := by
  by_cases hscripts : config.InScripts directories
  · rw [ofFile?_of_inScripts hscripts hname] at h
    cases h
    exact ⟨fileName, rfl, fun houtside => absurd hscripts houtside⟩
  · rw [ofFile?_of_not_inScripts hscripts] at h
    obtain ⟨name, hlump, rfl⟩ := Option.map_eq_some_iff.1 h
    exact ⟨name.text, rfl, fun _ => congrArg LumpName.text (LumpName.eq_of_ofFileName? hlump)⟩

/-- The case of the directories does not count. -/
theorem ofFile?_congr_directories (hname : fileName ≠ "") {others : List String}
    (h : directories.map Ascii.upper = others.map Ascii.upper) :
    ofFile? config (directories ++ [fileName]) = ofFile? config (others ++ [fileName]) := by
  have hsame : config.InScripts directories ↔ config.InScripts others := by
    rw [inScripts_iff, h, ← inScripts_iff]
  by_cases hscripts : config.InScripts directories
  · rw [ofFile?_of_inScripts hscripts hname, ofFile?_of_inScripts (hsame.1 hscripts) hname, h]
  · rw [ofFile?_of_not_inScripts hscripts, ofFile?_of_not_inScripts (mt hsame.2 hscripts), h]

/-- Outside of the scripts, only what is before the first `.` of the file name counts, in any case. -/
theorem ofFile?_congr_fileName (hscripts : ¬ config.InScripts directories) {other : String}
    (h : Ascii.upper (LumpName.beforeFirstDot fileName) =
      Ascii.upper (LumpName.beforeFirstDot other)) :
    ofFile? config (directories ++ [fileName]) = ofFile? config (directories ++ [other]) := by
  rw [ofFile?_of_not_inScripts hscripts, ofFile?_of_not_inScripts hscripts,
    LumpName.ofFileName?_congr h]

/-- **The address of a file, by the spelling of its path.**  A relative path with parts that are texts
has no address exactly if the file is outside of the scripts and its name starts with a `.`.  An address
has one segment for each part: the directories in upper case and then, outside of the scripts, the name
of a lump made from what is before the first `.`.  The segments are clean if the path has no zero byte.
The case of the directories never counts.  Outside of the scripts, neither the case of the file name
counts nor anything behind its first `.`.  Below the scripts, at any depth, a file keeps its name, so
that files of one directory have different addresses. -/
theorem ofFilePath?_by_spelling (config : Config) {path : FilePath} {directories : List String}
    {fileName : String} (hpath : path.Spells (directories ++ [fileName])) :
    (ofFilePath? config path = none ↔
      ¬ config.InScripts directories ∧ ∃ rest, fileName = "." ++ rest) ∧
    (∀ address, ofFilePath? config path = some address →
      (∃ last, address.segments = directories.map Ascii.upper ++ [last] ∧
        (¬ config.InScripts directories →
          last = (LumpName.ofText (LumpName.beforeFirstDot fileName)).text)) ∧
      (0 ∉ path.bytes → ∀ segment ∈ address.segments, IsClean segment)) ∧
    (∀ (other : FilePath) (others : List String), other.Spells (others ++ [fileName]) →
      List.Forall₂ (fun a b => Ascii.equalIgnoringCase a b = true) directories others →
        ofFilePath? config other = ofFilePath? config path) ∧
    (¬ config.InScripts directories →
      ∀ (other : FilePath) (otherName : String), other.Spells (directories ++ [otherName]) →
        (Ascii.equalIgnoringCase fileName otherName = true ∨
          ∃ stem rest rest', '.' ∉ stem.toList ∧ fileName = stem ++ "." ++ rest ∧
            otherName = stem ++ "." ++ rest') →
        ofFilePath? config other = ofFilePath? config path) ∧
    (config.InScripts directories →
      (∃ address, ofFilePath? config path = some address ∧ address.last? = some fileName) ∧
      ∀ (other : FilePath) (otherName : String), other.Spells (directories ++ [otherName]) →
        otherName ≠ fileName → ofFilePath? config other ≠ ofFilePath? config path) := by
  have hlast : ∀ {name : String} {names : List String}, name ∈ names ++ [name] :=
    List.mem_append_right _ List.mem_cons_self
  have hname := hpath.ne_empty hlast
  rw [ofFilePath?_eq hpath]
  refine ⟨ofFile?_eq_none_iff hname, ?_, ?_, ?_, ?_⟩
  · intro address haddress
    refine ⟨exists_segments_of_ofFile? hname haddress, ?_⟩
    intro hzero
    exact isClean_of_ofFile? (fun name hmem => hpath.isFileSegment hzero hmem) haddress
  · intro other others hother hsame
    rw [ofFilePath?_eq hother, ofFile?_congr_directories hname (Ascii.map_upper_eq hsame).symm]
  · intro hscripts other otherName hother hsame
    rw [ofFilePath?_eq hother]
    refine ofFile?_congr_fileName hscripts ?_
    rcases hsame with hcase | ⟨stem, rest, rest', hstem, rfl, rfl⟩
    · rw [← LumpName.beforeFirstDot_upper, ← LumpName.beforeFirstDot_upper,
        Ascii.equalIgnoringCase_iff.1 hcase]
    · rw [LumpName.beforeFirstDot_append hstem, LumpName.beforeFirstDot_append hstem]
  · intro hscripts
    rw [ofFile?_of_inScripts hscripts hname]
    refine ⟨⟨_, rfl, List.getLast?_concat⟩, ?_⟩
    intro other otherName hother hne hsame
    rw [ofFilePath?_eq hother, ofFile?_of_inScripts hscripts (hother.ne_empty hlast)] at hsame
    have hsegments := congrArg ResourcePath.segments (Option.some.inj hsame)
    exact hne (List.singleton_inj.1 (List.append_cancel_left hsegments))

/-- The scripts are only the first directory: below another one of that name, a file is named like a
lump, and the separators of its path do not count.  In the scripts themselves, names differ in case. -/
theorem ofFilePath?_by_spelling_scripts :
    (FilePath.ofText "maps/Scripts/intro.txt").Spells (["maps", "Scripts"] ++ ["intro.txt"]) ∧
      ofFilePath? {} (.ofText "Maps//scripts/intro.txt") =
        ofFilePath? {} (.ofText "maps/Scripts/intro.txt") ∧
      ofFilePath? {} (.ofText "maps/Scripts/intro.tar.gz") =
        ofFilePath? {} (.ofText "maps/Scripts/intro.txt") ∧
      ofFilePath? {} (.ofText "Scripts/acs/Intro.txt") ≠
        ofFilePath? {} (.ofText "Scripts/acs/intro.txt") := by
  have hmaps : (FilePath.ofText "maps/Scripts/intro.txt").Spells
      (["maps", "Scripts"] ++ ["intro.txt"]) := by decide
  have hscripts : (FilePath.ofText "Scripts/acs/intro.txt").Spells
      (["Scripts", "acs"] ++ ["intro.txt"]) := by decide
  obtain ⟨-, -, hdirectories, houtside, -⟩ := ofFilePath?_by_spelling {} hmaps
  obtain ⟨-, -, -, -, hinside⟩ := ofFilePath?_by_spelling {} hscripts
  refine ⟨hmaps, ?_, ?_, ?_⟩
  · refine hdirectories _ ["Maps", "scripts"] (by decide) ?_
    exact .cons (by decide) (.cons (by decide) .nil)
  · refine houtside ?_ _ "intro.tar.gz" (by decide) ?_
    · rintro ⟨first, hfirst, hsame⟩
      cases hfirst
      revert hsame
      decide
    · exact .inr ⟨"intro", "txt", "tar.gz", by decide, by decide, by decide⟩
  · exact (hinside ⟨"Scripts", rfl, by decide⟩).2 _ "Intro.txt" (by decide) (by decide)

end ResourcePath

end WadCatalog
