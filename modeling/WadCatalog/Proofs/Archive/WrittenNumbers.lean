import WadCatalog.Proofs.Archive.RoundTrip

/-
  The numbers of a written archive.

  The header of an archive counts its lumps and says where the table starts, and each record says
  where the data of a lump starts and how long it is.  All of these are sums without a bound that are
  written with thirty-two bits, and nothing is refused.

  1. **What is written can be read back** (`parse_build_header`, `parse?_slice_build`): the header and
     the record at each place are there, whatever the numbers in them are.
  2. **A number is written as itself below `0x80000000` and never above** (`toInt_ofNat_eq_iff`).
  3. **So the table decides** (`tellsTruth_iff`).  It starts behind all data, and no lump ends behind
     it: if its position is below the limit, so are the position and the length of every lump, and
     only the number of lumps remains.
-/

namespace WadCatalog.Archive.Builder

/-- That an archive says of itself what is so: how many lumps it has, where its table starts, and for
each lump with data where that starts and how long it is. -/
structure TellsTruth (builder : Builder) : Prop where
  /-- The header knows the number of lumps and the position of the table. -/
  header : ∃ header, Header.parse builder.build = .ok header ∧
    header.lumpCount.toInt = builder.length ∧
    header.tableOffset.toInt = (12 + builder.body.length : Nat)
  /-- The record of a lump knows the position and the length of its data. -/
  record : ∀ (place : Nat) (name : LumpName) (data : Bytes),
    builder.lumps[place]? = some (.holding name data) →
      ∃ record, Record.parse? (builder.build.slice (12 + builder.body.length + place * 16) 16) =
          some record ∧
        record.offset.toInt = (12 + PendingLump.offsetOf builder.lumps place : Nat) ∧
        record.length.toInt = data.length

/-! ## What is written -/

/-- Only a number below the limit is written as itself. -/
theorem toInt_ofNat_eq_iff {n : Nat} : (Int32.ofNat n).toInt = n ↔ n ≤ 0x7fffffff := by
  constructor
  · intro h
    have hlt := (Int32.ofNat n).toInt_lt
    omega
  · intro h
    exact Int32.toInt_ofNat_of_lt (by omega)

/-- The data of a lump lies where the data of those before it ends. -/
theorem slice_build_data {builder : Builder} {place : Nat} {lump : PendingLump}
    (h : builder.lumps[place]? = some lump) :
    builder.build.slice (12 + PendingLump.offsetOf builder.lumps place) lump.data.length =
      lump.data := by
  rw [slice_build_of_body _ (PendingLump.offsetOf_add_length_le h)]
  exact PendingLump.slice_flatMap_data h

/-- The record that is written for a lump is read back. -/
theorem parse?_slice_build {builder : Builder} {place : Nat} {lump : PendingLump}
    (h : builder.lumps[place]? = some lump) :
    Record.parse? (builder.build.slice (12 + builder.body.length + place * 16) 16) =
      some (.ofEntry (lump.entry (12 + PendingLump.offsetOf builder.lumps place))) := by
  let records := builder.entries.map Record.ofEntry
  have hrecord : records[place]? =
      some (.ofEntry (lump.entry (12 + PendingLump.offsetOf builder.lumps place))) := by
    rw [List.getElem?_map, entries, getElem?_entriesFrom, h]
    rfl
  have hplace : place < records.length := (List.getElem?_eq_some_iff.1 hrecord).1
  have hlength : records.length * Record.width ≤ (Record.encodeTable records).length :=
    Nat.le_of_eq (Record.length_encodeTable records).symm
  have hdecoded := Record.getElem?_decodeTable hlength hplace
  rw [Record.decodeTable_encodeTable, hrecord] at hdecoded
  rw [Bytes.slice, ← List.drop_drop, drop_build]
  exact hdecoded.symm

/-! ## When it is true -/

/-- **An archive tells the truth exactly if it is small enough.**  The data of each lump and the table
lie where they should in any case.  All numbers that say so are right if there are at most
`0x7fffffff` lumps and the table starts at `0x7fffffff` or before, and otherwise one of the two numbers
of the header is wrong. -/
theorem tellsTruth_iff (builder : Builder) :
    (∀ (place : Nat) (lump : PendingLump), builder.lumps[place]? = some lump →
      builder.build.slice (12 + PendingLump.offsetOf builder.lumps place) lump.data.length =
        lump.data) ∧
    builder.build.drop (12 + builder.body.length) =
      Record.encodeTable (builder.entries.map Record.ofEntry) ∧
    (builder.TellsTruth ↔
      builder.length ≤ 0x7fffffff ∧ 12 + builder.body.length ≤ 0x7fffffff) := by
  refine ⟨fun place lump hlump => slice_build_data hlump, drop_build builder, ?_⟩
  constructor
  · rintro ⟨⟨header, hparse, hcount, hstart⟩, -⟩
    rw [parse_build_header] at hparse
    cases hparse
    exact ⟨toInt_ofNat_eq_iff.1 hcount, toInt_ofNat_eq_iff.1 hstart⟩
  · rintro ⟨hmany, hfar⟩
    refine ⟨⟨builder.header, parse_build_header builder, toInt_ofNat_eq_iff.2 hmany,
      toInt_ofNat_eq_iff.2 hfar⟩, ?_⟩
    intro place name data hlump
    -- the lump ends before the table starts
    have hinside : PendingLump.offsetOf builder.lumps place + data.length ≤ builder.body.length :=
      PendingLump.offsetOf_add_length_le hlump
    exact ⟨_, parse?_slice_build hlump, toInt_ofNat_eq_iff.2 (by omega),
      toInt_ofNat_eq_iff.2 (by omega)⟩

theorem body_addLump (builder : Builder) (name : String) (data : Bytes) :
    (builder.addLump name data).body = builder.body ++ data := by
  rw [body, body, addLump, add, List.flatMap_append, List.flatMap_singleton, PendingLump.data]

/-- One lump whose data ends at `0x80000000` is too much: the archive is written, with a table that is
said to start at a negative position. -/
theorem not_tellsTruth_zeros :
    let builder := (empty .pwad).addLump "A" (List.replicate 0x7ffffff4 0)
    builder.body.length = 0x7ffffff4 ∧
      (∃ header, Header.parse builder.build = .ok header ∧
        header.tableOffset.toInt = -0x80000000) ∧
      ¬ builder.TellsTruth := by
  intro builder
  have hbody : builder.body.length = 0x7ffffff4 := by
    show ((empty .pwad).addLump "A" (List.replicate 0x7ffffff4 0)).body.length = _
    rw [body_addLump, List.length_append, List.length_replicate]
    rfl
  refine ⟨hbody, ⟨builder.header, parse_build_header builder, ?_⟩, ?_⟩
  · show (Int32.ofNat (12 + builder.body.length)).toInt = _
    rw [hbody]
    decide
  · intro htells
    have hfar := ((tellsTruth_iff builder).2.2.1 htells).2
    omega

end WadCatalog.Archive.Builder
