import WadCatalog.Catalog
import WadCatalog.Lump.Directory

/-
  Which lump serves which resource.

  A container keeps the way from a resource to its lump and the way back as two separate maps.  Each
  new pair overwrites what either map held for it, and no attempt is made to keep the two in step:
  a registry that gives one id to several lumps leaves them all listed under that id.
-/

namespace WadCatalog

/-- The resources of a container and the lumps that serve them. -/
structure IdMap where
  /-- The lump that serves each resource. -/
  lumps : Std.TreeMap ResourceId LumpId
  /-- The resource of each lump. -/
  resources : Std.TreeMap LumpId ResourceId

namespace IdMap

/-- The map before anything was registered. -/
def empty : IdMap := ⟨∅, ∅⟩

/-- Records that a lump serves a resource. -/
def insert (map : IdMap) (resource : ResourceId) (lump : LumpId) : IdMap :=
  ⟨map.lumps.insert resource lump, map.resources.insert lump resource⟩

/-- The lump that serves a resource. -/
def lumpOf? (map : IdMap) (resource : ResourceId) : Option LumpId := map.lumps[resource]?

/-- The resource that was registered for a lump. -/
def resourceOf? (map : IdMap) (lump : LumpId) : Option ResourceId := map.resources[lump]?

/-- The registered resources in the order of their lumps. -/
def resourceIds (map : IdMap) : List ResourceId := map.resources.values

/-- How many resources are served. -/
def length (map : IdMap) : Nat := map.lumps.size

/-! ## Registration -/

/-- Announces the lumps of a container in order, each at its address, and records the ids that the
registry answers with. -/
def announce {ρ : Type} [Registry ρ] (container : ContainerId) :
    IdMap → ρ → List (LumpId × ResourcePath) → IdMap × ρ
  | map, registry, [] => (map, registry)
  | map, registry, (lump, path) :: rest =>
    let (resource, registry) := Registry.addResource registry path container
    announce container (map.insert resource lump) registry rest

end IdMap

end WadCatalog
