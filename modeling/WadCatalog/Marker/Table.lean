import WadCatalog.Marker
import WadCatalog.Lump.Directory
import WadCatalog.Namespace
import Std.Data.TreeMap

/-
  The ranges that the markers of a directory delimit.

  One pass over the directory remembers the latest marker of any label and either side.  At a
  closing marker a range ends, and it began at the remembered marker, *whatever that marker was*:
  nested or unbalanced markers are taken as they come, and a closing marker without any marker
  before it ends a range without a beginning.  A label that is closed more than once keeps its last
  range.

  The two markers do not belong to the range between them.
-/

namespace WadCatalog

/-- The lumps between two markers. -/
structure MarkerRange where
  /-- The marker in front, if there is one. -/
  start : Option LumpId
  /-- The marker behind. -/
  finish : LumpId
  deriving DecidableEq

namespace MarkerRange

/-- Whether a lump lies strictly between the two markers. -/
def contains (range : MarkerRange) (id : LumpId) : Bool :=
  range.start.any (· < id) && decide (id < range.finish)

end MarkerRange

/-- The range of each label, in the order of the labels. -/
structure MarkerTable where
  /-- The last range closed under each label. -/
  ranges : Std.TreeMap String MarkerRange

namespace MarkerTable

/-- The table without ranges. -/
def empty : MarkerTable := ⟨∅⟩

/-! ## Building -/

/-- How far a pass over a directory has come. -/
structure Scan where
  /-- The latest marker. -/
  latest : Option LumpId
  /-- The ranges closed so far. -/
  ranges : Std.TreeMap String MarkerRange

/-- The pass at one lump. -/
def Scan.step (scan : Scan) (id : LumpId) (name : LumpName) : Scan :=
  match Marker.ofName? name with
  | none => scan
  | some ⟨_, .opening⟩ => { scan with latest := some id }
  | some ⟨label, .closing⟩ => ⟨some id, scan.ranges.insert label ⟨scan.latest, id⟩⟩

/-- The pass over the names from lump `id` on. -/
def Scan.run (scan : Scan) (id : LumpId) : List LumpName → Scan
  | [] => scan
  | name :: rest => (scan.step id name).run (id + 1) rest

/-- The table of a list of names. -/
def ofNames (names : List LumpName) : MarkerTable := ⟨(Scan.run ⟨none, ∅⟩ 0 names).ranges⟩

/-- The table of a directory. -/
def build (directory : LumpDirectory) : MarkerTable := ofNames directory.names

/-! ## Use -/

/-- The range of a label. -/
def get? (table : MarkerTable) (label : String) : Option MarkerRange := table.ranges[label]?

/-- The labels with their ranges, in the order of the labels. -/
def toList (table : MarkerTable) : List (String × MarkerRange) := table.ranges.toList

/-- How many labels have a range. -/
def length (table : MarkerTable) : Nat := table.ranges.size

/-- The namespace of the first range, among those with a known label, that a lump lies in. -/
def namespaceFor? (table : MarkerTable) (id : LumpId) : Option Namespace :=
  table.toList.findSome? fun (label, range) =>
    if range.contains id then Namespace.ofMarkerLabel? label else none

end MarkerTable

end WadCatalog
