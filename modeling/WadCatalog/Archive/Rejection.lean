import WadCatalog.Bytes

/-
  Why an archive is rejected.

  The causes are listed in the order in which an archive is checked; the first that applies is the
  one reported.  The first four concern the header alone.
-/

namespace WadCatalog.Archive

/-- Why an archive is rejected. -/
inductive Rejection where
  /-- There are only `length` bytes, fewer than a header has. -/
  | tooShort (length : Nat)
  /-- The first four bytes belong to no kind of archive. -/
  | invalidMagic (magic : Bytes)
  /-- The header announces `count` lumps, fewer than one. -/
  | invalidLumpCount (count : Int)
  /-- The header places the table at `offset`, before the end of the header. -/
  | invalidTableOffset (offset : Int)
  /-- The table of `length` bytes at `offset` does not end inside the `size` bytes there are. -/
  | tableOutOfBounds (offset length size : Nat)
  /-- Of the `expected` bytes of the table only `actual` could be read. -/
  | truncatedTable (expected actual : Nat)
  deriving DecidableEq

namespace Rejection

/-- Whether the cause lies in the header and not in the table. -/
def isHeaderError : Rejection → Bool
  | tooShort _ | invalidMagic _ | invalidLumpCount _ | invalidTableOffset _ => true
  | tableOutOfBounds .. | truncatedTable .. => false

/-- The cause for a reader. -/
def message : Rejection → String
  | tooShort length => s!"Stream too short for WAD header: {length} bytes"
  | invalidMagic magic =>
    let pairs := magic.map fun byte => String.ofList (Bytes.hexPair byte)
    "Invalid WAD magic: [" ++ ", ".intercalate pairs ++ "]"
  | invalidLumpCount count => s!"Invalid lump count: {count}"
  | invalidTableOffset offset => s!"Invalid directory table offset: {offset}"
  | tableOutOfBounds offset length size =>
    s!"Directory table out of bounds: offset {offset} + length {length} exceeds size {size}"
  | truncatedTable expected actual =>
    s!"Truncated directory table: expected {expected} bytes, read {actual}"

end Rejection

end WadCatalog.Archive
