import WadCatalog.Proofs.Archive.Mirrored
import WadCatalog.Proofs.ByteSource.Complete
import WadCatalog.Proofs.Container.Registration
import WadCatalog.Session

/-
  What an open archive gives, whatever was asked before.

  All reads of an archive share one cursor, which registration, the classifier and every earlier read
  have moved.  It does not matter, and the proof has three parts.

  1. **What never changes** (`Serves`, `IsStill`).  The source is a steady stream over the bytes, and
     every resource leads to a lump inside them; where the cursor is, is not part of it.  One call
     keeps this (`IsStill.loadLump`, `isStill_after`), hence any number of calls to any containers
     does, by induction on the calls (`isStill_calls`).
  2. **What one read gives** (`loadLump_eq_slice`).  It seeks first, and a steady stream, which holds
     its bytes, gives the whole range.
  3. **What registration leaves behind** (`serves_register`).  Resources are announced for the lumps
     inside the source only, so an archive that has just been opened serves its bytes.
-/

namespace WadCatalog

/-! ## Calls in a session -/

/-- A question that a container of a session is asked. -/
inductive Call where
  /-- How many bytes a resource has. -/
  | sizeOf (resource : ResourceId)
  /-- To fill a buffer from a resource. -/
  | load (resource : ResourceId) (buffer : Bytes)
  /-- For all bytes of a resource. -/
  | loadAll (resource : ResourceId)
  /-- To fill a buffer from a lump. -/
  | loadLump (lump : LumpId) (buffer : Bytes)
  deriving DecidableEq

/-- The container after it was asked. -/
def Container.after (disk : Disk) (container : Container) : Call → Container
  | .sizeOf _ => container
  | .load resource buffer => (container.load disk resource buffer.length).2
  | .loadAll resource => (container.loadAll disk resource).2
  | .loadLump lump buffer => ((container.loadLump lump buffer.length).map (·.2)).getD container

/-- The session after one of its containers was asked; nobody answers for a container that was not
opened. -/
def Session.call (session : Session) (index : Nat) (call : Call) : Session :=
  match session.containers[index]? with
  | some container => session.update index (container.after session.disk call)
  | none => session

/-- The session after some calls, each to the container with the given number. -/
def Session.calls (session : Session) : List (Nat × Call) → Session
  | [] => session
  | (index, call) :: rest => (session.call index call).calls rest

/-- A call leaves its container as that one leaves itself. -/
theorem Session.call_self {session : Session} {index : Nat} {container : Container}
    (h : session.containers[index]? = some container) (call : Call) :
    (session.call index call).containers[index]? = some (container.after session.disk call) := by
  have hbound : index < session.containers.size := (Array.getElem?_eq_some_iff.1 h).1
  rw [Session.call, h]
  exact Array.getElem?_setIfInBounds_self_of_lt hbound

/-- A call to another container leaves a container as it is. -/
theorem Session.call_other {session : Session} {index other : Nat} (h : other ≠ index)
    (call : Call) :
    (session.call other call).containers[index]? = session.containers[index]? := by
  unfold Session.call
  split
  · exact Array.getElem?_setIfInBounds_ne h
  · rfl

namespace WadContainer

/-! ## What never changes -/

/-- That a container serves the archive that some bytes are: its source is a steady stream over
them, its directory is theirs unless they were rejected, and every resource it serves leads to a lump
inside them. -/
structure Serves (bytes : Bytes) (container : WadContainer AnySource) : Prop where
  source : container.source.IsSteady bytes
  parsed : container.directory = .empty ∨
    ∃ kind, Archive.parse bytes = .ok (kind, container.directory)
  inside : ∀ resource lump, container.lookup.lumpOf? resource = some lump →
    ∃ entry, container.directory.get? lump = some entry ∧ entry.fitsWithin bytes.length = true

/-- That a container serves the same archive, and the same resources, as one did first. -/
structure IsStill (bytes : Bytes) (first container : WadContainer AnySource) : Prop where
  serves : container.Serves bytes
  directory : container.directory = first.directory
  lookup : container.lookup = first.lookup

/-- A read of a lump moves the cursor and nothing else. -/
theorem IsStill.loadLump {bytes : Bytes} {first container : WadContainer AnySource}
    (h : IsStill bytes first container) (lump : LumpId) (room : Nat) :
    IsStill bytes first (container.loadLump lump room).2 := by
  unfold WadContainer.loadLump
  cases container.directory.get? lump with
  | none => exact h
  | some entry =>
    simp only
    split
    · exact h
    · have hsource := (AnySource.isKept_isSteady bytes).readAt h.serves.source entry.position
        (min room (container.lumpSize lump))
      exact ⟨⟨hsource, h.serves.parsed, h.serves.inside⟩, h.directory, h.lookup⟩

/-- A read of a resource is a read of its lump, or nothing. -/
theorem IsStill.load {bytes : Bytes} {first container : WadContainer AnySource}
    (h : IsStill bytes first container) (resource : ResourceId) (room : Nat) :
    IsStill bytes first (container.load resource room).2 := by
  unfold WadContainer.load
  split
  · exact h.loadLump _ _
  · exact h

/-- **One call.**  An archive that is asked is still as it was first. -/
theorem isStill_after {bytes : Bytes} {first container : WadContainer AnySource}
    (h : IsStill bytes first container) (disk : Disk) (call : Call) :
    ∃ after, (Container.wad container).after disk call = .wad after ∧
      IsStill bytes first after := by
  cases call with
  | sizeOf resource => exact ⟨container, rfl, h⟩
  | load resource buffer => exact ⟨_, rfl, h.load resource buffer.length⟩
  | loadAll resource => exact ⟨_, rfl, h.load resource (container.sizeOf resource)⟩
  | loadLump lump buffer => exact ⟨_, rfl, h.loadLump lump buffer.length⟩

/-- **Any calls.**  An archive of a session is still as it was first after any calls to it and to
the other containers. -/
theorem isStill_calls {bytes : Bytes} {first : WadContainer AnySource} {index : Nat}
    (calls : List (Nat × Call)) {session : Session}
    (h : ∃ container, session.containers[index]? = some (.wad container) ∧
      IsStill bytes first container) :
    ∃ container, (session.calls calls).containers[index]? = some (.wad container) ∧
      IsStill bytes first container := by
  induction calls generalizing session with
  | nil => exact h
  | cons entry rest ih =>
    obtain ⟨other, call⟩ := entry
    obtain ⟨container, hcontainer, hstill⟩ := h
    apply ih
    -- a call changes the container that is asked, by one step, and no other
    by_cases hsame : other = index
    · subst hsame
      obtain ⟨after, hafter, hstays⟩ := isStill_after hstill session.disk call
      refine ⟨after, ?_, hstays⟩
      rw [Session.call_self hcontainer, hafter]
    · refine ⟨container, ?_, hstill⟩
      rw [Session.call_other hsame]
      exact hcontainer

/-! ## What one read gives -/

section Reading

variable {bytes : Bytes} {container : WadContainer AnySource} {lump : LumpId} {entry : LumpEntry}

/-- The range of an entry that fits is there as far as there is room. -/
theorem length_slice_of_fits (hfits : entry.fitsWithin bytes.length = true) (room : Nat) :
    (bytes.slice entry.position (min room entry.size)).length = min room entry.size := by
  have hend := LumpEntry.position_add_size_le hfits
  exact Bytes.length_slice_of_le (by omega)

/-- A lump inside a steady source has the size of its entry. -/
theorem lumpSize_eq (hsteady : container.source.IsSteady bytes)
    (hentry : container.directory.get? lump = some entry)
    (hfits : entry.fitsWithin bytes.length = true) : container.lumpSize lump = entry.size := by
  rw [lumpSize, hentry, hsteady.size_eq]
  exact if_pos hfits

/-- **One read.**  A lump inside a steady source gives its range, as far as there is room. -/
theorem loadLump_eq_slice (hsteady : container.source.IsSteady bytes)
    (hentry : container.directory.get? lump = some entry)
    (hfits : entry.fitsWithin bytes.length = true) (room : Nat) :
    (container.loadLump lump room).1 = bytes.slice entry.position (min room entry.size) := by
  rw [loadLump_eq_take hsteady.holds, LumpDirectory.bytesOf_of_fits hentry hfits]
  exact List.take_take

variable {resource : ResourceId}

theorem sizeOf_eq (hsteady : container.source.IsSteady bytes)
    (hlump : container.lookup.lumpOf? resource = some lump)
    (hentry : container.directory.get? lump = some entry)
    (hfits : entry.fitsWithin bytes.length = true) : container.sizeOf resource = entry.size := by
  rw [WadContainer.sizeOf, hlump]
  exact lumpSize_eq hsteady hentry hfits

theorem load_eq_slice (hsteady : container.source.IsSteady bytes)
    (hlump : container.lookup.lumpOf? resource = some lump)
    (hentry : container.directory.get? lump = some entry)
    (hfits : entry.fitsWithin bytes.length = true) (room : Nat) :
    (container.load resource room).1 = bytes.slice entry.position (min room entry.size) := by
  rw [WadContainer.load, hlump]
  exact loadLump_eq_slice hsteady hentry hfits room

end Reading

/-! ## What registration leaves behind -/

/-- A lump that a resource leads to after registration lies inside the source. -/
theorem mem_idsWithin_of_register {ρ : Type} [Registry ρ] (context : OpenContext) (registry : ρ)
    {container : WadContainer AnySource} (hempty : container.lookup = .empty)
    {resource : ResourceId} {lump : LumpId}
    (h : (container.register context registry).2.1.lookup.lumpOf? resource = some lump) :
    lump ∈ container.directory.idsWithin (ByteSource.size container.source) := by
  rw [(register_eq_addAll context registry container hempty).1] at h
  exact (List.of_mem_zip (IdMap.mem_of_lumpOf?_insertAll h)).2

/-- Registering an archive that has been read makes it one that serves its bytes. -/
theorem serves_register {ρ : Type} [Registry ρ] (context : OpenContext) (registry : ρ)
    {bytes : Bytes} {container : WadContainer AnySource}
    (hsteady : container.source.IsSteady bytes) (hempty : container.lookup = .empty)
    (hparsed : container.directory = .empty ∨
      ∃ kind, Archive.parse bytes = .ok (kind, container.directory)) :
    (container.register context registry).2.1.Serves bytes := by
  refine ⟨?_, hparsed, ?_⟩
  · exact (AnySource.isKept_isSteady bytes).fileLumps context container.directory
      container.markers container.directory.indexed .start hsteady
  · intro resource lump hlump
    have hinside := mem_idsWithin_of_register context registry hempty hlump
    rw [hsteady.size_eq] at hinside
    exact LumpDirectory.mem_idsWithin.1 hinside

/-- The directory of a container over a stream is that of the bytes, or empty. -/
theorem directory_ofSource {bytes : Bytes} {stream : Stream} (hover : stream.IsOver bytes)
    (id : ContainerId) :
    (ofSource (AnySource.stream stream) id).directory = .empty ∨
      ∃ kind, Archive.parse bytes =
        .ok (kind, (ofSource (AnySource.stream stream) id).directory) := by
  cases hread : (readDirectory (AnySource.stream stream)).1 with
  | error failure =>
    left
    rw [ofSource_of_error hread]
  | ok found =>
    right
    obtain ⟨kind, directory⟩ := found
    have hdirectory : (ofSource (AnySource.stream stream) id).directory = directory := by
      rw [ofSource]
      simp only
      rw [hread]
    rw [(readDirectory_of_mirrors (AnySource.mirrors_stream stream)).1] at hread
    rw [hdirectory]
    exact ⟨kind, parse_of_readDirectory hover hread⟩

end WadContainer

/-! ## Exact reads -/

namespace Container

/-- Fills a buffer from a resource: how many bytes came, and the buffer afterwards. -/
def fill (disk : Disk) (container : Container) (resource : ResourceId) (buffer : Bytes) :
    Nat × Bytes :=
  let data := (container.load disk resource buffer.length).1
  (data.length, buffer.overwrite data)

/-- A container that was opened over an archive of the given bytes, in memory or in a file. -/
inductive OpenedOver (bytes : Bytes) : Container → Prop where
  | memory {ρ : Type} [Registry ρ] (context : OpenContext) (registry : ρ) (id : ContainerId) :
    OpenedOver bytes (openWadSource context registry (.stream (.ofBytes bytes)) id).container
  | file {ρ : Type} [Registry ρ] (context : OpenContext) (registry : ρ) (id : ContainerId)
    {disk : Disk} {path : FilePath} {file : NodeId} {content : Content}
    (hopen : disk.openFile path = .ok (file, content)) (hbytes : content.bytes = bytes) :
    OpenedOver bytes (openAs .wad disk context registry path id).container

/-- An archive that has just been opened serves its bytes. -/
theorem OpenedOver.exists_serves {bytes : Bytes} {container : Container}
    (h : container.OpenedOver bytes) :
    ∃ first, container = .wad first ∧ WadContainer.Serves bytes first := by
  cases h with
  | memory context registry id =>
    have hstream := Stream.isSteady_ofBytes bytes
    have hsteady : AnySource.IsSteady bytes (.stream (.ofBytes bytes)) := ⟨_, rfl, hstream⟩
    have hread := (AnySource.isKept_isSteady bytes).readDirectory hsteady
    have hparsed := WadContainer.directory_ofSource hstream.isOver id
    exact ⟨_, rfl, WadContainer.serves_register context registry hread rfl hparsed⟩
  | file context registry id hopen hbytes =>
    have hstream := hbytes ▸ Stream.isSteady_openFile hopen
    have hsteady : AnySource.IsSteady bytes (.stream (.openFile _ _)) := ⟨_, rfl, hstream⟩
    have hread := (AnySource.isKept_isSteady bytes).readDirectory hsteady
    have hparsed := WadContainer.directory_ofSource hstream.isOver id
    exact ⟨_, rfl, WadContainer.serves_register context registry hread rfl hparsed⟩

/-- What filling a buffer from an archive gives. -/
theorem fill_wad {bytes : Bytes} {wad : WadContainer AnySource}
    (hsteady : wad.source.IsSteady bytes) {resource : ResourceId} {lump : LumpId}
    {entry : LumpEntry} (hlump : wad.lookup.lumpOf? resource = some lump)
    (hentry : wad.directory.get? lump = some entry)
    (hfits : entry.fitsWithin bytes.length = true) (disk : Disk) (buffer : Bytes) :
    (Container.wad wad).fill disk resource buffer =
      (min buffer.length entry.size,
        buffer.overwrite (bytes.slice entry.position (min buffer.length entry.size))) := by
  have hdata : ((Container.wad wad).load disk resource buffer.length).1 =
      bytes.slice entry.position (min buffer.length entry.size) :=
    WadContainer.load_eq_slice hsteady hlump hentry hfits buffer.length
  rw [fill, hdata, WadContainer.length_slice_of_fits hfits]

/-- **Exact reads.**  After any calls to any containers of a session, an archive in it still has the
directory that its bytes hold and serves every resource it served first, from the entry of the lump
the resource leads to.  Filling a buffer gives as many bytes as fit in, exactly those of the range,
and leaves the rest of the buffer; and all bytes of the resource are exactly the range. -/
theorem fill_exact {bytes : Bytes} {session : Session} {index : Nat} {container : Container}
    (hindex : session.containers[index]? = some container) (hopened : container.OpenedOver bytes)
    (calls : List (Nat × Call)) :
    ∃ first after, container = .wad first ∧
      (session.calls calls).containers[index]? = some (.wad after) ∧
      after.directory = first.directory ∧ after.lookup = first.lookup ∧
      ∀ resource lump, after.lookup.lumpOf? resource = some lump →
        ∃ kind entry, Archive.parse bytes = .ok (kind, after.directory) ∧
          after.directory.get? lump = some entry ∧
          entry.offset.toInt = entry.position ∧ entry.length.toInt = entry.size ∧
          entry.position + entry.size ≤ bytes.length ∧
          (∀ (disk : Disk) (buffer : Bytes),
            let filled := (Container.wad after).fill disk resource buffer
            let count := min buffer.length entry.size
            filled.1 = count ∧ filled.2.take count = bytes.slice entry.position count ∧
              filled.2.drop count = buffer.drop count) ∧
          ∀ disk : Disk, ((Container.wad after).loadAll disk resource).1 =
            bytes.slice entry.position entry.size := by
  obtain ⟨first, hfirst, hserves⟩ := hopened.exists_serves
  subst hfirst
  obtain ⟨after, hafter, hstill⟩ :=
    WadContainer.isStill_calls calls ⟨first, hindex, hserves, rfl, rfl⟩
  refine ⟨first, after, rfl, hafter, hstill.directory, hstill.lookup, ?_⟩
  intro resource lump hlump
  obtain ⟨hsteady, hparsed, hinside⟩ := hstill.serves
  obtain ⟨entry, hentry, hfits⟩ := hinside resource lump hlump
  obtain ⟨hoffset, hlength, -⟩ := of_decide_eq_true hfits
  -- a directory with an entry is not the one of an archive that was rejected
  obtain ⟨kind, hkind⟩ : ∃ kind, Archive.parse bytes = .ok (kind, after.directory) := by
    rcases hparsed with hnone | hsome
    · rw [hnone] at hentry
      cases hentry
    · exact hsome
  refine ⟨kind, entry, hkind, hentry, (Int.toNat_of_nonneg hoffset).symm,
    (Int.toNat_of_nonneg hlength).symm, LumpEntry.position_add_size_le hfits, ?_, ?_⟩
  · intro disk buffer filled count
    have hfilled : filled = (count, buffer.overwrite (bytes.slice entry.position count)) :=
      fill_wad hsteady hlump hentry hfits disk buffer
    have hcount : (bytes.slice entry.position count).length = count :=
      WadContainer.length_slice_of_fits hfits buffer.length
    have htake := Bytes.take_overwrite buffer (bytes.slice entry.position count)
    have hdrop := Bytes.drop_overwrite buffer (bytes.slice entry.position count)
    rw [hcount] at htake hdrop
    rw [hfilled]
    exact ⟨rfl, htake, hdrop⟩
  · intro disk
    show (after.load resource (after.sizeOf resource)).1 = _
    rw [WadContainer.load_eq_slice hsteady hlump hentry hfits,
      WadContainer.sizeOf_eq hsteady hlump hentry hfits, Nat.min_self]

/-- An archive of two lumps in memory. -/
def pairArchive : Archive.Builder :=
  (Archive.Builder.empty .pwad).addLump "A" [1, 2, 3] |>.addLump "B" [4, 5]

/-- The container over that archive. -/
def pairWad : Container :=
  (openWadSource {} Catalog.empty (.stream (.ofBytes pairArchive.build)) ⟨0⟩).container

/-- A session with the archive open twice. -/
def pairSession : Session := ⟨.empty, {}, ⟨.empty, #[], 0⟩, #[pairWad, pairWad]⟩

theorem fill_exact_pair :
    ∃ after, (pairSession.calls [(0, .load ⟨0⟩ [9]), (1, .loadAll ⟨0⟩),
        (0, .loadLump 1 [9])]).containers[0]? = some (.wad after) ∧
      (Container.wad after).fill .empty ⟨1⟩ [7, 7, 7, 7] = (2, [4, 5, 7, 7]) := by
  have hopen : pairSession.containers[0]? = some pairWad := rfl
  have hlookup : pairWad.asWad?.bind (·.lookup.lumpOf? ⟨1⟩) = some 1 := by decide +kernel
  have hentry : pairWad.asWad?.bind (·.directory.get? 1) = some ⟨.ofText "B", 15, 2⟩ := by
    decide +kernel
  have hbytes : pairArchive.build.slice 15 2 = [4, 5] := by decide +kernel
  obtain ⟨first, after, hfirst, hafter, hdirectory, hsame, hserves⟩ :=
    fill_exact hopen (.memory {} Catalog.empty ⟨0⟩)
      [(0, .load ⟨0⟩ [9]), (1, .loadAll ⟨0⟩), (0, .loadLump 1 [9])]
  rw [hfirst] at hlookup hentry
  obtain ⟨kind, entry, -, hget, -, -, -, hfill, -⟩ := hserves ⟨1⟩ 1 (hsame ▸ hlookup)
  rw [hdirectory] at hget
  cases hget.symm.trans hentry
  obtain ⟨hcount, htake, hdrop⟩ := hfill .empty [7, 7, 7, 7]
  refine ⟨after, hafter, ?_⟩
  generalize (Container.wad after).fill .empty ⟨1⟩ [7, 7, 7, 7] = filled at hcount htake hdrop ⊢
  have hfront : filled.2.take 2 = [4, 5] := htake.trans hbytes
  have hback : filled.2.drop 2 = [7, 7] := hdrop
  have hall : filled.2 = [4, 5, 7, 7] := by
    rw [← List.take_append_drop 2 filled.2, hfront, hback]
    rfl
  exact Prod.ext hcount hall

end Container

end WadCatalog
