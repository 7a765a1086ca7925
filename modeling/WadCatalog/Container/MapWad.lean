import WadCatalog.Container.Wad
import WadCatalog.Lump.FileNames

/-
  Archives that hold one map.

  Such an archive is read like any other, but nothing of it is registered: whoever loads the map
  reads its lumps by their place or name.  The name of the map is that of the file, whatever the
  first lump is called.
-/

namespace WadCatalog

/-- A container over an archive with one map. -/
structure MapWadContainer (σ : Type) where
  /-- The archive. -/
  wad : WadContainer σ
  /-- The name of the map. -/
  mapName : Option LumpName

namespace MapWadContainer

variable {σ : Type} [ByteSource σ]

/-- The container over a source. -/
def ofSource (source : σ) (id : ContainerId) (mapName : Option LumpName) : MapWadContainer σ :=
  ⟨.ofSource source id, mapName⟩

/-- The directory that the lumps of the map would be filed in. -/
def mapPath? (container : MapWadContainer σ) : Option ResourcePath :=
  container.mapName.map fun name => (Namespace.ofMap name).path

end MapWadContainer

end WadCatalog
