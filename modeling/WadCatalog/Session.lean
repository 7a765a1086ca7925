import WadCatalog.Container

/-
  Sessions: a disk, a catalog, and the containers opened into it one after another.

  Containers are known by the order they were opened in.  Since a container that has a file open
  sees what is written to that file later, writing goes through the session, which tells every
  container of it.  Removing a file does not disturb the containers that have it open.
-/

namespace WadCatalog

/-- A disk, a catalog, and the containers opened so far. -/
structure Session where
  /-- The disk. -/
  disk : Disk
  /-- How containers classify and walk. -/
  context : OpenContext
  /-- What the containers announced. -/
  registry : AliasingCatalog
  /-- The containers in the order they were opened. -/
  containers : Array Container

namespace Session

/-- Before anything was opened. -/
def start (disk : Disk) (context : OpenContext) (aliases : Array ResourceId) : Session :=
  ⟨disk, context, ⟨.empty, aliases, 0⟩, #[]⟩

/-- Opens a container under a fresh id. -/
def enter (session : Session)
    (openWith : AliasingCatalog → ContainerId → Opened AliasingCatalog) :
    Opened AliasingCatalog × Session :=
  let (id, catalog) := session.registry.catalog.allocateContainerId
  let opened := openWith { session.registry with catalog } id
  (opened, { session with
    registry := opened.registry
    containers := session.containers.push opened.container })

/-- Opens what is at a path, as the given kind of container or as the kind that fits. -/
def openAt (session : Session) (kind : Option ContainerKind) (path : FilePath) :
    Opened AliasingCatalog × Session :=
  session.enter fun registry id =>
    Container.openAs (kind.getD (.detect session.disk path)) session.disk session.context registry
      path id

/-- Opens an archive over a source. -/
def openWadSource (session : Session) (source : AnySource) : Opened AliasingCatalog × Session :=
  session.enter fun registry id => Container.openWadSource session.context registry source id

/-- Opens an archive of one map over a source. -/
def openMapSource (session : Session) (source : AnySource) (mapName : Option LumpName) :
    Opened AliasingCatalog × Session :=
  session.enter fun registry id =>
    { container := Container.openMapSource source id mapName, registry }

/-- The session with another state of one container. -/
def update (session : Session) (index : Nat) (container : Container) : Session :=
  { session with containers := session.containers.setIfInBounds index container }

/-- Writes a file, with the directories above it. -/
def write (session : Session) (path : FilePath) (content : Content) :
    Except DiskError Session := do
  let disk ← session.disk.makeParents path
  let (file, disk) ← disk.writeFile path content
  return { session with
    disk
    containers := session.containers.map (·.written file content) }

/-- Takes what a path names out of its directory. -/
def remove (session : Session) (path : FilePath) : Except DiskError Session := do
  return { session with disk := ← session.disk.remove path }

end Session

end WadCatalog
