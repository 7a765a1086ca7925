import WadCatalog.ResourcePath

/-
  Namespaces: the directories that resources are filed in.

  There is one for each kind of picture or table that an archive groups between markers, one for
  each map, and the global one for everything else.
-/

namespace WadCatalog

/-- A directory that resources are filed in. -/
inductive Namespace where
  /-- Everything without a namespace of its own. -/
  | global
  /-- Textures of floors and ceilings. -/
  | flats
  /-- Frames of sprites. -/
  | sprites
  /-- Patches that wall textures are made of. -/
  | patches
  /-- Colour maps. -/
  | colormaps
  /-- Textures that stand alone. -/
  | textures
  /-- Replacements in high resolution. -/
  | hires
  /-- The data of the map with the given name. -/
  | map (name : String)
  deriving DecidableEq

namespace Namespace

/-- The namespace that the lumps between two markers belong to, by the label of the markers. -/
def ofMarkerLabel? (label : String) : Option Namespace :=
  if label = "F" ∨ label = "FF" then some flats
  else if label = "S" ∨ label = "SS" then some sprites
  else if label = "P" ∨ label = "PP" then some patches
  else if label = "C" then some colormaps
  else if label = "TX" then some textures
  else if label = "HI" then some hires
  else none

/-- The namespace of the map that a lump of this name starts. -/
def ofMap (marker : LumpName) : Namespace := map marker.text

/-- The segments of a namespace's address. -/
def segments : Namespace → List String
  | global => ["GLOBAL"]
  | flats => ["FLATS"]
  | sprites => ["SPRITES"]
  | patches => ["PATCHES"]
  | colormaps => ["COLORMAPS"]
  | textures => ["TEXTURES"]
  | hires => ["HIRES"]
  | map name => ["MAPS", name]

/-- The address of a namespace. -/
def path (space : Namespace) : ResourcePath := ⟨space.segments⟩

example : (ofMap (.ofText "map01")).path.text = "/MAPS/MAP01" := by decide
example : ofMarkerLabel? "FF" = some flats := by decide
example : ofMarkerLabel? "f" = none := by decide

end Namespace

end WadCatalog
