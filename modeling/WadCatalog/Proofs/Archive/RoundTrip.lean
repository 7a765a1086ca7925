import WadCatalog.Archive.Builder

/-
  Reading back what was written.

  The data of the lumps lies behind the header, one after another, and the table behind that.

  1. **Where the data of a lump lies.**  The lumps before it tell: their data has `offsetOf` bytes,
     and records, which bring no data, count nothing.  The running position of the builder is that
     sum (`getElem?_entriesFrom`), and the data is found there (`slice_flatMap_data`).
  2. **The table is found** (`parse_build_eq`).  The header says how many records there are and that
     they start behind the data.  Both numbers are written with thirty-two bits, so the archive must
     not be too large.
  3. **Both together** (`parse_build`).
-/

namespace WadCatalog.Archive

namespace PendingLump

/-! ## Where the data of a lump lies -/

/-- How many bytes of data the lumps before a place have. -/
def offsetOf (lumps : List PendingLump) (place : Nat) : Nat :=
  ((lumps.take place).flatMap data).length

theorem offsetOf_cons_succ (lump : PendingLump) (rest : List PendingLump) (place : Nat) :
    offsetOf (lump :: rest) (place + 1) = lump.data.length + offsetOf rest place := by
  rw [offsetOf, List.take_succ_cons, List.flatMap_cons, List.length_append, offsetOf]

/-- The data of a lump has the data of those before it in front, and that of the others behind. -/
theorem exists_data_behind {lumps : List PendingLump} {place : Nat} {lump : PendingLump}
    (h : lumps[place]? = some lump) :
    ∃ behind, lumps.flatMap data = (lumps.take place).flatMap data ++ (lump.data ++ behind) := by
  obtain ⟨hplace, hlump⟩ := List.getElem?_eq_some_iff.1 h
  have hsplit : lumps = lumps.take place ++ lump :: lumps.drop (place + 1) := by
    rw [← hlump, ← List.drop_eq_getElem_cons hplace, List.take_append_drop]
  refine ⟨(lumps.drop (place + 1)).flatMap data, ?_⟩
  conv => lhs; rw [hsplit]
  rw [List.flatMap_append, List.flatMap_cons]

/-- The data of all lumps holds that of each where the lumps before it end. -/
theorem slice_flatMap_data {lumps : List PendingLump} {place : Nat} {lump : PendingLump}
    (h : lumps[place]? = some lump) :
    Bytes.slice (lumps.flatMap data) (offsetOf lumps place) lump.data.length = lump.data := by
  obtain ⟨behind, hbehind⟩ := exists_data_behind h
  have hslice := Bytes.slice_append_right ((lumps.take place).flatMap data) (lump.data ++ behind) 0
    lump.data.length
  rw [Nat.add_zero, ← hbehind] at hslice
  rw [offsetOf, hslice, Bytes.slice_append_left (by omega), Bytes.slice, List.drop_zero,
    List.take_length]

/-- The data of a lump ends where that of all lumps does, or before. -/
theorem offsetOf_add_length_le {lumps : List PendingLump} {place : Nat} {lump : PendingLump}
    (h : lumps[place]? = some lump) :
    offsetOf lumps place + lump.data.length ≤ (lumps.flatMap data).length := by
  obtain ⟨behind, hbehind⟩ := exists_data_behind h
  rw [hbehind, List.length_append, List.length_append, offsetOf]
  omega

end PendingLump

namespace Builder

/-- The entry at a place is that of the lump there, whose data starts where the lumps before it
end. -/
theorem getElem?_entriesFrom (lumps : List PendingLump) (position place : Nat) :
    (entriesFrom position lumps)[place]? =
      lumps[place]?.map (·.entry (position + PendingLump.offsetOf lumps place)) := by
  induction lumps generalizing position place with
  | nil => rfl
  | cons lump rest ih =>
    cases place with
    | zero => rfl
    | succ place =>
      rw [entriesFrom, List.getElem?_cons_succ, ih, List.getElem?_cons_succ,
        PendingLump.offsetOf_cons_succ, Nat.add_assoc]

/-! ## The table is found -/

/-- The header that was written is read back. -/
theorem parse_build_header (builder : Builder) :
    Header.parse builder.build = .ok builder.header := by
  rw [build, List.append_assoc]
  exact Header.parse_encode_append builder.header _

/-- Behind the header and the data there is the table. -/
theorem drop_build (builder : Builder) :
    builder.build.drop (12 + builder.body.length) =
      Record.encodeTable (builder.entries.map Record.ofEntry) := by
  have hfront : (builder.header.encode ++ builder.body).length = 12 + builder.body.length := by
    rw [List.length_append, Header.length_encode]
  rw [build, ← hfront, List.drop_left]

/-- That the numbers of an archive fit into its header and its table. -/
structure Fits (builder : Builder) : Prop where
  /-- There is a lump. -/
  one_le : 1 ≤ builder.length
  /-- There are not too many lumps. -/
  length_lt : builder.length < 0x80000000
  /-- The table does not start too far behind. -/
  table_lt : 12 + builder.body.length < 0x80000000

section Fits

variable {builder : Builder}

theorem Fits.recordCount_header (h : builder.Fits) :
    builder.header.recordCount = builder.length := by
  show (Int32.ofNat builder.length).toInt.toNat = _
  rw [Int32.toInt_ofNat_of_lt h.length_lt, Int.toNat_natCast]

theorem Fits.tableStart_header (h : builder.Fits) :
    builder.header.tableStart = 12 + builder.body.length := by
  show (Int32.ofNat (12 + builder.body.length)).toInt.toNat = _
  rw [Int32.toInt_ofNat_of_lt h.table_lt, Int.toNat_natCast]

/-- The header of an archive that fits is valid. -/
theorem Fits.validate_header (h : builder.Fits) :
    builder.header.validate builder.build.length = .ok builder.kind := by
  have hcount : builder.header.lumpCount.toInt = builder.length :=
    Int32.toInt_ofNat_of_lt h.length_lt
  have htable : builder.header.tableOffset.toInt = (12 + builder.body.length : Nat) :=
    Int32.toInt_ofNat_of_lt h.table_lt
  have hone := h.one_le
  refine Header.validate_eq_ok_iff.2 ⟨Kind.ofMagic?_magic builder.kind, ?_, ?_, ?_⟩
  · omega
  · rw [htable, Header.width]
    omega
  · have hend : builder.header.tableStart + builder.header.tableLength =
        builder.build.length := by
      rw [h.tableStart_header, Header.tableLength, h.recordCount_header, length_build,
        Header.recordWidth]
    exact Nat.le_of_eq hend

/-- The table of an archive that fits is where its header says. -/
theorem Fits.slice_table (h : builder.Fits) :
    builder.build.slice builder.header.tableStart builder.header.tableLength =
      Record.encodeTable (builder.entries.map Record.ofEntry) := by
  have hlength : (Record.encodeTable (builder.entries.map Record.ofEntry)).length =
      builder.header.tableLength := by
    rw [Record.length_encodeTable, List.length_map, entries, length_entriesFrom,
      Header.tableLength, h.recordCount_header]
    rfl
  rw [Bytes.slice, h.tableStart_header, drop_build, ← hlength, List.take_length]

/-- **The table is found.**  An archive that fits is accepted, and its directory has the entries
that were written. -/
theorem parse_build_eq (h : builder.Fits) :
    parse builder.build = .ok (builder.kind, ⟨builder.entries.toArray⟩) := by
  refine parse_eq_ok_iff.2 ⟨builder.header, parse_build_header builder, h.validate_header, ?_⟩
  have hcount : (builder.entries.map Record.ofEntry).length = builder.header.recordCount := by
    rw [List.length_map, entries, length_entriesFrom, h.recordCount_header]
    rfl
  have hlong : (builder.entries.map Record.ofEntry).length * Record.width ≤
      (Record.encodeTable (builder.entries.map Record.ofEntry)).length :=
    Nat.le_of_eq (Record.length_encodeTable _).symm
  rw [h.slice_table, ← hcount, readTable_eq_ok hlong, Record.decodeTable_encodeTable]
  have hentries : (builder.entries.map Record.ofEntry).map Record.entry = builder.entries := by
    rw [List.map_map]
    exact List.map_id'' (fun entry => Record.entry_ofEntry entry) _
  rw [hentries]

end Fits

/-! ## What was added -/

/-- Something that is added to an archive. -/
inductive Addition where
  /-- A lump with data. -/
  | lump (name : String) (data : Bytes)
  /-- A record with a range of its own choice. -/
  | record (name : String) (offset length : Int32)
  deriving DecidableEq

namespace Addition

/-- The lump that waits to be written. -/
def pending : Addition → PendingLump
  | lump name data => .holding (.ofText name) data
  | record name offset length => .bare ⟨.ofText name, offset, length⟩

/-- The data that is added. -/
def data : Addition → Bytes
  | lump _ data => data
  | record _ _ _ => []

/-- That an entry of an archive is what was added: a lump lies inside the archive and its range
holds the data, and a record is there as it was given. -/
def ReadsAs (bytes : Bytes) (entry : LumpEntry) : Addition → Prop
  | lump name data => entry.name = .ofText name ∧ entry.fitsWithin bytes.length = true ∧
      bytes.slice entry.position entry.size = data
  | record name offset length => entry = ⟨.ofText name, offset, length⟩

end Addition

/-- The builder after one more addition. -/
def append (builder : Builder) : Addition → Builder
  | .lump name data => builder.addLump name data
  | .record name offset length => builder.addRecord name offset length

/-- The builder after several additions, in order. -/
def ofAdditions (kind : Kind) (additions : List Addition) : Builder :=
  additions.foldl append (empty kind)

theorem foldl_append (builder : Builder) (additions : List Addition) :
    additions.foldl append builder =
      ⟨builder.kind, builder.lumps ++ additions.map Addition.pending⟩ := by
  induction additions generalizing builder with
  | nil => rw [List.map_nil, List.append_nil]; rfl
  | cons addition rest ih =>
    have hone : builder.append addition =
        ⟨builder.kind, builder.lumps ++ [addition.pending]⟩ := by
      cases addition <;> rfl
    rw [List.foldl_cons, ih, hone, List.map_cons, List.append_assoc]
    rfl

/-- The lumps that wait to be written are those that were added. -/
theorem ofAdditions_eq (kind : Kind) (additions : List Addition) :
    ofAdditions kind additions = ⟨kind, additions.map Addition.pending⟩ := by
  rw [ofAdditions, foldl_append]
  rfl

/-- The body of the archive is the data that was added. -/
theorem body_ofAdditions (kind : Kind) (additions : List Addition) :
    (ofAdditions kind additions).body = additions.flatMap Addition.data := by
  have hdata : (fun addition : Addition => addition.pending.data) = Addition.data := by
    funext addition
    cases addition <;> rfl
  rw [ofAdditions_eq, body, List.flatMap_map, hdata]

/-- The body of an archive lies behind its header. -/
theorem slice_build_of_body (builder : Builder) {start count : Nat}
    (h : start + count ≤ builder.body.length) :
    builder.build.slice (12 + start) count = builder.body.slice start count := by
  have hheader : builder.header.encode.length = 12 := Header.length_encode _
  rw [build, List.append_assoc, ← hheader, Bytes.slice_append_right, Bytes.slice_append_left h]

/-- The data of a lump that was added is found at its entry. -/
theorem readsAs_holding {builder : Builder} (h : builder.Fits) {place : Nat} {name : String}
    {data : Bytes} (hlump : builder.lumps[place]? = some (.holding (.ofText name) data)) :
    (Addition.lump name data).ReadsAs builder.build
      ((PendingLump.holding (.ofText name) data).entry
        (12 + PendingLump.offsetOf builder.lumps place)) := by
  have hinside : PendingLump.offsetOf builder.lumps place + data.length ≤ builder.body.length :=
    PendingLump.offsetOf_add_length_le hlump
  -- the position and the length are below the limit, so neither is wrapped
  have htable := h.table_lt
  have hoffset := Int32.toInt_ofNat_of_lt (n := 12 + PendingLump.offsetOf builder.lumps place)
    (by omega)
  have hlength := Int32.toInt_ofNat_of_lt (n := data.length) (by omega)
  have hbuild := builder.length_build
  refine ⟨rfl, ?_, ?_⟩
  · refine decide_eq_true ⟨?_, ?_, ?_⟩
    · show 0 ≤ (Int32.ofNat (12 + PendingLump.offsetOf builder.lumps place)).toInt
      omega
    · show 0 ≤ (Int32.ofNat data.length).toInt
      omega
    · show (Int32.ofNat (12 + PendingLump.offsetOf builder.lumps place)).toInt +
        (Int32.ofNat data.length).toInt ≤ builder.build.length
      omega
  · show builder.build.slice (Int32.ofNat (12 + PendingLump.offsetOf builder.lumps place)).toInt.toNat
      (Int32.ofNat data.length).toInt.toNat = data
    rw [hoffset, hlength, Int.toNat_natCast, Int.toNat_natCast, slice_build_of_body _ hinside]
    exact PendingLump.slice_flatMap_data hlump

/-- **Reading back what was written.**  An archive of at least one lump, whose numbers stay below
`0x80000000`, is accepted as one of its kind.  Its directory has one entry for each addition, in
order, and each entry is what was added. -/
theorem parse_build (kind : Kind) (additions : List Addition) (hone : 1 ≤ additions.length)
    (hmany : additions.length ≤ 0x7fffffff)
    (hdata : 12 + (additions.flatMap Addition.data).length ≤ 0x7fffffff) :
    let bytes := (ofAdditions kind additions).build
    ∃ directory, parse bytes = .ok (kind, directory) ∧ directory.length = additions.length ∧
      ∀ (place : Nat) (addition : Addition), additions[place]? = some addition →
        ∃ entry, directory.get? place = some entry ∧ addition.ReadsAs bytes entry := by
  intro bytes
  have hlumps : (ofAdditions kind additions).lumps = additions.map Addition.pending := by
    rw [ofAdditions_eq]
  have hkind : (ofAdditions kind additions).kind = kind := by rw [ofAdditions_eq]
  have hlength : (ofAdditions kind additions).length = additions.length := by
    rw [length, hlumps, List.length_map]
  have hfits : (ofAdditions kind additions).Fits := by
    have hbody := congrArg List.length (body_ofAdditions kind additions)
    exact ⟨by omega, by omega, by omega⟩
  have hparse := parse_build_eq hfits
  rw [hkind] at hparse
  refine ⟨_, hparse, ?_, ?_⟩
  · rw [LumpDirectory.length, List.size_toArray, entries, length_entriesFrom]
    exact hlength
  · intro place addition haddition
    have hlump : (ofAdditions kind additions).lumps[place]? = some addition.pending := by
      rw [hlumps, List.getElem?_map, haddition]
      rfl
    have hentry : (ofAdditions kind additions).entries[place]? =
        some (addition.pending.entry
          (12 + PendingLump.offsetOf (ofAdditions kind additions).lumps place)) := by
      rw [entries, getElem?_entriesFrom, hlump]
      rfl
    refine ⟨_, List.getElem?_toArray.trans hentry, ?_⟩
    cases addition with
    | lump name data => exact readsAs_holding hfits hlump
    | record name offset length => rfl

theorem parse_build_scattered :
    let additions := [.lump "MAP01" [], .record "far" (-1) 5, .lump "things" [1, 2, 3]]
    ∃ directory, parse (ofAdditions .pwad additions).build = .ok (.pwad, directory) ∧
      directory.length = 3 ∧ directory.get? 1 = some ⟨.ofText "FAR", -1, 5⟩ ∧
      ∃ things, directory.get? 2 = some things ∧ things.name = .ofText "THINGS" ∧
        (ofAdditions .pwad additions).build.slice things.position things.size = [1, 2, 3] := by
  intro additions
  obtain ⟨directory, hparse, hlength, hentries⟩ :=
    parse_build .pwad additions (by decide) (by decide) (by decide)
  obtain ⟨far, hfar, hrecord⟩ := hentries 1 _ rfl
  obtain ⟨things, hthings, hname, -, hdata⟩ := hentries 2 _ rfl
  have hfarName : LumpName.ofText "far" = .ofText "FAR" := by decide
  have hthingsName : LumpName.ofText "things" = .ofText "THINGS" := by decide
  refine ⟨directory, hparse, hlength, ?_, things, hthings, hname.trans hthingsName, hdata⟩
  rw [hfar, ← hfarName]
  exact congrArg some hrecord

end Builder

end WadCatalog.Archive
