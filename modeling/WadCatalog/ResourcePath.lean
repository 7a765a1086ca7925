import WadCatalog.Delimited
import WadCatalog.Lump.Name

/-
  Addresses of resources.

  A resource has an address such as `/SPRITES/TROOA1`: a list of segments from the root.  As text,
  each segment follows a `/`, and the root alone is a single `/`; reading a text back drops empty
  segments.  The two are inverse to each other on segments that are neither empty nor hold a `/`
  (`parse_text`).  Other segments do occur, since the name of a lump may be any bytes.
-/

namespace WadCatalog

/-- The address of a resource, or of a directory of resources. -/
structure ResourcePath where
  /-- The segments from the root on. -/
  segments : List String
  deriving DecidableEq

namespace ResourcePath

/-- Between segments in text. -/
def delimiter : Char := '/'

/-- The address of everything. -/
def root : ResourcePath := ⟨[]⟩

/-- The address written by a text; empty segments are dropped. -/
def parse (text : String) : ResourcePath :=
  ⟨((Delimited.pieces delimiter text.toList).filter (· != [])).map String.ofList⟩

/-- The text of an address. -/
def text (path : ResourcePath) : String :=
  if path.segments = [] then "/"
  else String.ofList (path.segments.flatMap fun segment => delimiter :: segment.toList)

/-- The address one segment further down. -/
def join (path : ResourcePath) (segment : String) : ResourcePath := ⟨path.segments ++ [segment]⟩

/-- The address of a lump in a directory. -/
def joinLump (path : ResourcePath) (name : LumpName) : ResourcePath := path.join name.text

/-- The last segment. -/
def last? (path : ResourcePath) : Option String := path.segments.getLast?

/-- The address without its last segment. -/
def parent? (path : ResourcePath) : Option ResourcePath :=
  if path.segments = [] then none else some ⟨path.segments.dropLast⟩

/-- Whether the address lies in or is the directory `above`. -/
def isUnder (path above : ResourcePath) : Bool := above.segments.isPrefixOf path.segments

/-- Whether this is the address of everything. -/
def isRoot (path : ResourcePath) : Bool := path.segments.isEmpty

/-- Addresses are ordered segment by segment. -/
instance : Ord ResourcePath := ⟨compareOn segments⟩

instance : Std.TransOrd ResourcePath := inferInstanceAs (Std.TransCmp (compareOn segments))

instance : Std.LawfulEqOrd ResourcePath where
  eq_of_compare {a b} h := by
    cases a; cases b
    exact congrArg _ (Std.LawfulEqOrd.eq_of_compare h)

/-! ## Laws of text -/

/-- A segment that text keeps apart from its neighbours. -/
def IsClean (segment : String) : Prop := segment ≠ "" ∧ delimiter ∉ segment.toList

instance (segment : String) : Decidable (IsClean segment) :=
  inferInstanceAs (Decidable (segment ≠ "" ∧ delimiter ∉ segment.toList))

/-- The pieces of a text that goes on with clean segments are those segments. -/
theorem pieces_flatMap {segments : List String} (h : ∀ segment ∈ segments, IsClean segment)
    {front : List Char} (hfront : delimiter ∉ front) :
    Delimited.pieces delimiter
        (front ++ segments.flatMap fun segment => delimiter :: segment.toList) =
      front :: segments.map String.toList := by
  induction segments generalizing front with
  | nil => simpa using Delimited.pieces_of_not_mem hfront
  | cons segment rest ih =>
    have hsegment := h segment List.mem_cons_self
    have hrest := ih (fun other hmem => h other (List.mem_cons_of_mem _ hmem)) hsegment.2
    rw [List.flatMap_cons, List.cons_append, Delimited.pieces_append_cons, hrest,
      Delimited.pieces_of_not_mem hfront]
    rfl

/-- An address of clean segments survives being written and read back. -/
theorem parse_text {path : ResourcePath} (h : ∀ segment ∈ path.segments, IsClean segment) :
    parse path.text = path := by
  obtain ⟨segments⟩ := path
  unfold text
  split
  next hnil => cases (show segments = [] from hnil); decide
  next =>
    have hpieces := pieces_flatMap h (List.not_mem_nil (a := delimiter))
    rw [List.nil_append] at hpieces
    have hkeep : (segments.map String.toList).filter (· != []) = segments.map String.toList := by
      rw [List.filter_eq_self]
      intro chars hmem
      obtain ⟨segment, hsegment, rfl⟩ := List.mem_map.1 hmem
      simpa using (h segment hsegment).1
    simp only [parse, String.toList_ofList]
    rw [hpieces, List.filter_cons_of_neg (by simp), hkeep, List.map_map]
    simp

example : (parse "/MAPS//MAP01/THINGS/").segments = ["MAPS", "MAP01", "THINGS"] := by decide
example : (parse "MAPS/MAP01").text = "/MAPS/MAP01" := by decide
example : root.text = "/" := by decide
example : (parse "/MAPS/MAP011").isUnder (parse "/MAPS/MAP01") = false := by decide

end ResourcePath

end WadCatalog
