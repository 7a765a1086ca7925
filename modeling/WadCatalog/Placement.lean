import WadCatalog.Marker.Table

/-
  Where a lump belongs.

  Three things decide where a lump is filed, in this order:

    1. **The map it is part of.**  A lump that is followed by one of the lumps of a map starts a
       map.  It and the map's lumps behind it belong to that map, up to the first lump that is
       neither the start of a map nor part of one.
    2. **The markers around it.**  A lump strictly between two markers belongs to the namespace
       that their label stands for.
    3. **What it holds.**  Every other lump is handed to a classifier together with its bytes.

  This module decides the first two.  A `Placer` goes over the lumps in ascending order and carries
  the map it is in.  Lumps that are left out are simply not shown to it; but whether a lump starts a
  map depends on its neighbour in the whole directory.
-/

namespace WadCatalog

/-- Tells from its name and its bytes where a lump is filed. -/
abbrev Classifier := LumpName → Bytes → ResourcePath

/-- The classifier that files everything in the global namespace. -/
def Classifier.global : Classifier := fun _ _ => Namespace.global.path

/-- Goes over the lumps of a directory and carries the map it is in. -/
structure Placer where
  /-- The start of the current map. -/
  currentMap : Option LumpName
  deriving DecidableEq

namespace Placer

/-- Before the first lump. -/
def start : Placer := ⟨none⟩

/-- Whether the lump of the given name and id starts a map. -/
def startsMap (directory : LumpDirectory) (id : LumpId) (name : LumpName) : Bool :=
  !name.isMapLump && (directory.name? (id + 1)).any (·.isMapLump)

/-- The placer after a lump of the directory. -/
def advance (placer : Placer) (directory : LumpDirectory) (id : LumpId) (name : LumpName) :
    Placer :=
  if startsMap directory id name then ⟨some name⟩
  else if name.isMapLump then placer
  else ⟨none⟩

/-- The namespace of a lump by maps and markers, and the placer after it.  There is no namespace if
neither applies; an id without a lump changes nothing. -/
def place (placer : Placer) (directory : LumpDirectory) (markers : MarkerTable) (id : LumpId) :
    Option Namespace × Placer :=
  match directory.name? id with
  | none => (none, placer)
  | some name =>
    let after := placer.advance directory id name
    match after.currentMap with
    | some marker => (some (.ofMap marker), after)
    | none => (markers.namespaceFor? id, after)

/-- The namespaces of several lumps, shown to the placer in order. -/
def placeAll (directory : LumpDirectory) (markers : MarkerTable) :
    Placer → List LumpId → List (Option Namespace)
  | _, [] => []
  | placer, id :: rest =>
    let (space, after) := placer.place directory markers id
    space :: placeAll directory markers after rest

end Placer

end WadCatalog
