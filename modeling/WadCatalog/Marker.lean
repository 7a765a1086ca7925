import WadCatalog.Lump.Name

/-
  Markers: lumps without data that group the lumps between them.

  The name of a marker is a label followed by `_START` or `_END`.  The label must not be empty, so
  the lumps `_START` and `_END` are no markers.
-/

namespace WadCatalog

/-- Which end of a range a marker stands at. -/
inductive MarkerSide where
  /-- In front, `_START`. -/
  | opening
  /-- Behind, `_END`. -/
  | closing
  deriving DecidableEq

/-- What the name of a marker says. -/
structure Marker where
  /-- The part of the name that tells which lumps are grouped. -/
  label : String
  /-- Which end of the range this is. -/
  side : MarkerSide
  deriving DecidableEq

namespace MarkerSide

/-- The end of a marker's name. -/
def ending : MarkerSide → String
  | opening => "_START"
  | closing => "_END"

end MarkerSide

namespace Marker

/-- The label of a name that ends as the markers of one side do, if the label is not empty. -/
def label? (side : MarkerSide) (name : String) : Option String :=
  let chars := name.toList
  let ending := side.ending.toList
  if ending.isSuffixOf chars ∧ ending.length < chars.length then
    some (String.ofList (chars.take (chars.length - ending.length)))
  else none

/-- The marker with the given name as text. -/
def ofText? (name : String) : Option Marker :=
  match label? .opening name with
  | some label => some ⟨label, .opening⟩
  | none => (label? .closing name).map fun label => ⟨label, .closing⟩

/-- The marker with the given name. -/
def ofName? (name : LumpName) : Option Marker := ofText? name.text

end Marker

/-- Whether a lump of this name is a marker. -/
def LumpName.isMarker (name : LumpName) : Bool := (Marker.ofName? name).isSome

namespace Marker

example : ofText? "FF_END" = some ⟨"FF", .closing⟩ := by decide
example : ofText? "_START" = none := by decide
example : (LumpName.ofText "hi_start").isMarker = true := by decide

end Marker

end WadCatalog
