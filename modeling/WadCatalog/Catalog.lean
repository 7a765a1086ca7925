import WadCatalog.ResourcePath
import Std.Data.TreeMap

/-
  The catalog of resources.

  Containers announce every resource they find to a registry, which answers with an id of its own.
  The `Registry` class says no more than that.  The `Catalog` is the registry of the library: it
  hands out ids in order, starting from zero, and keeps what was announced.

  Several resources may share an address.  The catalog then knows them all, and the one announced
  last stands for the address.
-/

namespace WadCatalog

/-- The id a registry gives to a resource. -/
structure ResourceId where
  /-- The number of the resource. -/
  number : Nat
  deriving DecidableEq

instance : Ord ResourceId := ⟨compareOn ResourceId.number⟩

instance : Std.TransOrd ResourceId := inferInstanceAs (Std.TransCmp (compareOn ResourceId.number))

instance : Std.LawfulEqOrd ResourceId where
  eq_of_compare {a b} h := by
    cases a; cases b
    exact congrArg _ (Std.LawfulEqOrd.eq_of_compare h)

/-- The id of a container, given by its owner. -/
structure ContainerId where
  /-- The number of the container. -/
  number : Nat
  deriving DecidableEq

/-- Something that containers announce resources to. -/
class Registry (ρ : Type) where
  /-- Announces that a container provides a resource at an address; gives the id of the resource. -/
  addResource : ρ → ResourcePath → ContainerId → ResourceId × ρ

/-- One resource of a catalog. -/
structure CatalogEntry where
  /-- The id given to the resource. -/
  id : ResourceId
  /-- The address of the resource. -/
  path : ResourcePath
  /-- The container that provides it. -/
  container : ContainerId
  deriving DecidableEq

/-- Everything that was announced. -/
structure Catalog where
  /-- The resources in the order they were announced; the id is the index. -/
  entries : Array CatalogEntry
  /-- The ids at each address, latest first. -/
  byPath : Std.TreeMap ResourcePath (List ResourceId)
  /-- The number of the next container. -/
  nextContainer : Nat

namespace Catalog

/-- The catalog before anything was announced. -/
def empty : Catalog := ⟨#[], ∅, 0⟩

/-- A fresh container id. -/
def allocateContainerId (catalog : Catalog) : ContainerId × Catalog :=
  (⟨catalog.nextContainer⟩, { catalog with nextContainer := catalog.nextContainer + 1 })

/-- How many resources there are. -/
def length (catalog : Catalog) : Nat := catalog.entries.size

/-- Adds a resource under the next id. -/
def add (catalog : Catalog) (path : ResourcePath) (container : ContainerId) :
    ResourceId × Catalog :=
  let id : ResourceId := ⟨catalog.length⟩
  (id, { catalog with
    entries := catalog.entries.push ⟨id, path, container⟩
    byPath := catalog.byPath.insert path (id :: catalog.byPath.getD path []) })

instance : Registry Catalog := ⟨add⟩

/-- The resource of an id. -/
def get? (catalog : Catalog) (id : ResourceId) : Option CatalogEntry := catalog.entries[id.number]?

/-- The resource announced last at an address. -/
def lookup? (catalog : Catalog) (path : ResourcePath) : Option ResourceId :=
  (catalog.byPath.getD path []).head?

/-- All resources at an address, oldest first. -/
def lookupAll (catalog : Catalog) (path : ResourcePath) : List ResourceId :=
  (catalog.byPath.getD path []).reverse

/-- The resources of a container in the order they were announced. -/
def resourcesOf (catalog : Catalog) (container : ContainerId) : List CatalogEntry :=
  catalog.entries.toList.filter (·.container = container)

/-- The resources in or under a directory in the order they were announced. -/
def resourcesUnder (catalog : Catalog) (above : ResourcePath) : List CatalogEntry :=
  catalog.entries.toList.filter (·.path.isUnder above)

end Catalog

/-! ## A registry that answers with other ids -/

/-- A catalog that records as usual but answers with ids from a list, over and over. -/
structure AliasingCatalog where
  /-- What was announced. -/
  catalog : Catalog
  /-- The ids to answer with; with none at all, the catalog's own ids are the answers. -/
  aliases : Array ResourceId
  /-- How many resources were announced here. -/
  announced : Nat

namespace AliasingCatalog

/-- The next id of the list, or the catalog's own if the list is empty. -/
def answer (registry : AliasingCatalog) (own : ResourceId) : ResourceId :=
  if registry.aliases.isEmpty then own
  else registry.aliases.getD (registry.announced % registry.aliases.size) own

/-- Adds a resource and answers with the next id of the list. -/
def add (registry : AliasingCatalog) (path : ResourcePath) (container : ContainerId) :
    ResourceId × AliasingCatalog :=
  let (own, catalog) := registry.catalog.add path container
  (registry.answer own, { registry with catalog, announced := registry.announced + 1 })

instance : Registry AliasingCatalog := ⟨add⟩

end AliasingCatalog

end WadCatalog
