import WadCatalog.Config
import WadCatalog.Placement

/-
  What containers need to know while they are opened, besides the registry they announce their
  resources to.
-/

namespace WadCatalog

/-- How containers classify and walk. -/
structure OpenContext where
  /-- Decides where lumps go that no map and no marker claims. -/
  classifier : Classifier := .global
  /-- The options. -/
  config : Config := {}

/-- The largest size that is reported for a resource. -/
def sizeLimit : Nat := 0xffffffff

end WadCatalog
