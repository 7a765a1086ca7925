import WadCatalog.Proofs.Marker.LastRanges
import WadCatalog.Proofs.ResourcePath.Case
import WadCatalog.Proofs.Text.Cuts

/-
  What is decided by the name of a lump.

  A name may be any bytes, and yet all decisions are made on its text: whether the lump holds data of a
  map, whether it is a marker, and which namespace a marker's label stands for.  Names that differ may
  have one text, and an ill-formed byte is read together with its neighbours, so one might fear that a
  decision depends on more than the bytes it seems to be about.

  It does not, because every text that is asked for is ASCII.  Only its own bytes read as such a text
  (`decodeLossy_mem_iff`), and a text ends in one exactly where the bytes do
  (`Marker.ofName?_eq_some_iff`).  So the same questions asked of the bytes have the same answers
  (`decided_by_bytes`).
-/

namespace WadCatalog

/-- Of ASCII texts, some bytes read as one of them exactly if they are the bytes of one. -/
theorem Utf8.decodeLossy_mem_iff {bytes : Bytes} {texts : List String}
    (h : ∀ text ∈ texts, IsAscii text) : decodeLossy bytes ∈ texts ↔ bytes ∈ texts.map encode := by
  rw [List.mem_map]
  constructor
  · intro hmem
    exact ⟨_, hmem, ((decodeLossy_eq_iff (h _ hmem)).1 rfl).symm⟩
  · rintro ⟨text, hmem, rfl⟩
    rw [decodeLossy_encode]
    exact hmem

namespace Namespace

/-- The labels that stand for a namespace. -/
def markerLabels : List String := ["F", "FF", "S", "SS", "P", "PP", "C", "TX", "HI"]

theorem isSome_ofMarkerLabel?_iff {label : String} :
    (ofMarkerLabel? label).isSome = true ↔ label ∈ markerLabels := by
  constructor
  · intro hsome
    by_contra hother
    simp only [markerLabels, List.mem_cons, List.not_mem_nil, or_false, not_or] at hother
    simp [ofMarkerLabel?, hother] at hsome
  · have hall : ∀ known ∈ markerLabels, (ofMarkerLabel? known).isSome = true := by decide
    exact hall label

end Namespace

/-- A name is that of a marker exactly if its bytes end as one, with others before them.  Its label is
the text of those others. -/
theorem Marker.ofName?_eq_some_iff {name : LumpName} {label : String} {side : MarkerSide} :
    ofName? name = some ⟨label, side⟩ ↔
      ∃ before, before ≠ [] ∧ name.trimmed = before ++ Utf8.encode side.ending ∧
        Utf8.decodeLossy before = label := by
  have hascii : Utf8.IsAscii side.ending := by cases side <;> decide
  rw [ofName?, ofText?_eq_some_iff, LumpName.text, Utf8.decodeLossy_eq_append_iff hascii]
  constructor
  · rintro ⟨hlabel, before, hbytes, rfl⟩
    refine ⟨before, ?_, hbytes, rfl⟩
    rintro rfl
    exact hlabel rfl
  · rintro ⟨before, hne, hbytes, rfl⟩
    exact ⟨Utf8.decodeLossy_ne_empty hne, before, hbytes, rfl⟩

namespace LumpName

/-- A name is kept for the data of a map exactly if its text is, case and all: names are in upper
case. -/
theorem isMapLump_iff_text {name : LumpName} : name.isMapLump = true ↔ name.text ∈ mapLumpNames := by
  have hupper : ∀ reserved ∈ mapLumpNames, Ascii.upper reserved = reserved := by decide
  rw [isMapLump, isMapLumpText, List.any_eq_true]
  constructor
  · rintro ⟨reserved, hmem, hsame⟩
    rw [Ascii.equalIgnoringCase_iff, upper_text, hupper reserved hmem] at hsame
    exact hsame ▸ hmem
  · intro hmem
    exact ⟨name.text, hmem, Ascii.equalIgnoringCase_iff.2 rfl⟩

/-- That some bytes end in those of a text, with at least one byte before them. -/
def EndsIn (ending : String) (bytes : Bytes) : Prop :=
  ∃ before, before ≠ [] ∧ bytes = before ++ Utf8.encode ending

/-- A name marks a side exactly if its bytes end so. -/
theorem exists_label_iff {name : LumpName} {side : MarkerSide} :
    (∃ label, Marker.ofName? name = some ⟨label, side⟩) ↔ EndsIn side.ending name.trimmed := by
  simp only [Marker.ofName?_eq_some_iff]
  constructor
  · rintro ⟨label, before, hne, hbytes, -⟩
    exact ⟨before, hne, hbytes⟩
  · rintro ⟨before, hne, hbytes⟩
    exact ⟨_, before, hne, hbytes, rfl⟩

/-- **Names decide by their bytes**, whatever bytes a name was made from.  With the bytes of its
canonical form, without padding: a lump holds data of a map exactly if they are one of the reserved
names; it is a marker of one side exactly if they end in `_START` or in `_END`, with at least one byte
before, and none if they end in neither; and the label of a marker stands for a namespace exactly if
the bytes before the ending are one of the nine labels that do, and then for the namespace of that
label. -/
theorem decided_by_bytes (raw : Bytes) :
    let name := ofRaw raw
    (name.isMapLump = true ↔ name.trimmed ∈ mapLumpNames.map Utf8.encode) ∧
    ((∃ label, Marker.ofName? name = some ⟨label, .opening⟩) ↔ EndsIn "_START" name.trimmed) ∧
    ((∃ label, Marker.ofName? name = some ⟨label, .closing⟩) ↔ EndsIn "_END" name.trimmed) ∧
    (Marker.ofName? name = none ↔
      ¬ EndsIn "_START" name.trimmed ∧ ¬ EndsIn "_END" name.trimmed) ∧
    ∀ label side before, Marker.ofName? name = some ⟨label, side⟩ →
      name.trimmed = before ++ Utf8.encode side.ending →
        ((Namespace.ofMarkerLabel? label).isSome = true ↔
          before ∈ Namespace.markerLabels.map Utf8.encode) ∧
        ∀ known ∈ Namespace.markerLabels, before = Utf8.encode known →
          Namespace.ofMarkerLabel? label = Namespace.ofMarkerLabel? known := by
  intro name
  have hopening : (∃ label, Marker.ofName? name = some ⟨label, .opening⟩) ↔
      EndsIn "_START" name.trimmed := exists_label_iff
  have hclosing : (∃ label, Marker.ofName? name = some ⟨label, .closing⟩) ↔
      EndsIn "_END" name.trimmed := exists_label_iff
  refine ⟨?_, hopening, hclosing, ?_, ?_⟩
  · rw [isMapLump_iff_text]
    exact Utf8.decodeLossy_mem_iff (by decide)
  · rw [← hopening, ← hclosing]
    cases Marker.ofName? name with
    | none => simp
    | some marker =>
      obtain ⟨label, side⟩ := marker
      cases side with
      | opening => simp
      | closing => simp
  · intro label side before hmarker hbytes
    obtain ⟨front, -, hfront, rfl⟩ := Marker.ofName?_eq_some_iff.1 hmarker
    obtain rfl : before = front := List.append_cancel_right (hbytes.symm.trans hfront)
    refine ⟨?_, ?_⟩
    · rw [Namespace.isSome_ofMarkerLabel?_iff]
      exact Utf8.decodeLossy_mem_iff (by decide)
    · rintro known - rfl
      rw [Utf8.decodeLossy_encode]

/-- A character that is cut short in front of `_END` is part of the label, and the lumps before such a
marker are in no namespace. -/
theorem decided_by_bytes_tornLabel :
    let name := ofRaw [0x66, 0xE2, 0x82, 0x5F, 0x65, 0x6E, 0x64]
    (∃ label, Marker.ofName? name = some ⟨label, .closing⟩) ∧
      ∀ label, Marker.ofName? name = some ⟨label, .closing⟩ →
        Namespace.ofMarkerLabel? label = none := by
  intro name
  obtain ⟨-, -, hclosing, -, hlabel⟩ := decided_by_bytes [0x66, 0xE2, 0x82, 0x5F, 0x65, 0x6E, 0x64]
  have hbytes : name.trimmed = [0x46, 0xE2, 0x82] ++ Utf8.encode "_END" := by decide
  refine ⟨hclosing.2 ⟨_, by decide, hbytes⟩, ?_⟩
  intro label hmarker
  obtain ⟨hsome, -⟩ := hlabel label .closing _ hmarker hbytes
  rw [← Option.not_isSome_iff_eq_none, hsome]
  decide

end LumpName

end WadCatalog
