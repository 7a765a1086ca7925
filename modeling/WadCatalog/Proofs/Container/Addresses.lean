import WadCatalog.Proofs.Container.Registration
import WadCatalog.Proofs.ResourcePath.Text
import WadCatalog.Proofs.Text.Lossy

/-
  The addresses of an archive's lumps.

  With the classifier that files everything in the global namespace, each lump is filed in one of the
  namespaces (`isFiled_of_mem_filings`).  The names of lumps may be anything, but the names of the
  namespaces are not, and that is enough for two things:

  1. **Such an address is in upper case** (`IsFiled.upper_text`), since names of lumps are.
  2. **Its text tells it apart** from those whose segments are clean (`IsFiled.eq_of_text_eq`): the
     first segment can be read off the text, and it says how many segments there are.
-/

namespace WadCatalog

namespace ResourcePath

/-! ## Addresses in namespaces -/

/-- An address of segments in upper case has a text in upper case. -/
theorem upper_text {path : ResourcePath}
    (h : ∀ segment ∈ path.segments, Ascii.upper segment = segment) :
    Ascii.upper path.text = path.text := by
  refine Ascii.upper_eq_self_iff.2 ?_
  intro c hmem
  unfold text at hmem
  split at hmem
  · rw [List.mem_singleton.1 hmem]
    decide
  · rw [String.toList_ofList] at hmem
    obtain ⟨segment, hsegment, hc⟩ := List.mem_flatMap.1 hmem
    rcases List.mem_cons.1 hc with rfl | hinside
    · decide
    · exact Ascii.upper_eq_self_iff.1 (h segment hsegment) c hinside

/-- A text in upper case is read as an address of segments in upper case. -/
theorem upper_segments_parse {text : String} (h : Ascii.upper text = text) :
    ∀ segment ∈ (parse text).segments, Ascii.upper segment = segment := by
  intro segment hsegment
  obtain ⟨piece, hpiece, rfl⟩ := List.mem_map.1 hsegment
  refine Ascii.upper_eq_self_iff.2 ?_
  intro c hc
  rw [String.toList_ofList] at hc
  have hmem := Delimited.mem_of_mem_pieces (List.mem_filter.1 hpiece).1 hc
  exact Ascii.upper_eq_self_iff.1 h c hmem

/-- The address of a lump in a namespace; a map has the name of a lump. -/
inductive IsFiled : ResourcePath → Prop where
  | lump (space : Namespace) (name : LumpName)
      (hmap : ∀ map, space = .map map → ∃ marker : LumpName, map = marker.text) :
      IsFiled (space.path.joinLump name)

/-- The segments of an address in a namespace are in upper case. -/
theorem IsFiled.upper_segments {path : ResourcePath} (h : path.IsFiled) :
    ∀ segment ∈ path.segments, Ascii.upper segment = segment := by
  obtain ⟨space, name, hmap⟩ := h
  intro segment hsegment
  rcases List.mem_append.1 hsegment with hspace | hname
  · cases space with
    | map map =>
      obtain ⟨marker, rfl⟩ := hmap map rfl
      rcases List.mem_cons.1 hspace with rfl | hmarker
      · decide
      · rw [List.mem_singleton.1 hmarker]
        exact marker.upper_text
    | _ =>
      rw [List.mem_singleton.1 hspace]
      decide
  · rw [List.mem_singleton.1 hname]
    exact name.upper_text

theorem IsFiled.upper_text {path : ResourcePath} (h : path.IsFiled) :
    Ascii.upper path.text = path.text :=
  ResourcePath.upper_text h.upper_segments

/-- The first segment of an address in a namespace is clean and says how many there are. -/
theorem IsFiled.exists_head {path : ResourcePath} (h : path.IsFiled) :
    ∃ head rest, path.segments = head :: rest ∧ delimiter ∉ head.toList ∧
      rest.length = if head = "MAPS" then 2 else 1 := by
  obtain ⟨space, name, -⟩ := h
  cases space with
  | map map => exact ⟨"MAPS", [map, name.text], rfl, by decide, rfl⟩
  | global => exact ⟨"GLOBAL", [name.text], rfl, by decide, rfl⟩
  | flats => exact ⟨"FLATS", [name.text], rfl, by decide, rfl⟩
  | sprites => exact ⟨"SPRITES", [name.text], rfl, by decide, rfl⟩
  | patches => exact ⟨"PATCHES", [name.text], rfl, by decide, rfl⟩
  | colormaps => exact ⟨"COLORMAPS", [name.text], rfl, by decide, rfl⟩
  | textures => exact ⟨"TEXTURES", [name.text], rfl, by decide, rfl⟩
  | hires => exact ⟨"HIRES", [name.text], rfl, by decide, rfl⟩

/-- The text of an address in a namespace starts at the root. -/
theorem IsFiled.head?_text {path : ResourcePath} (h : path.IsFiled) :
    path.text.toList.head? = some delimiter := by
  obtain ⟨head, rest, hsegments, -, -⟩ := h.exists_head
  rw [text, if_neg (by rw [hsegments]; exact List.cons_ne_nil _ _), hsegments,
    String.toList_ofList]
  rfl

/-- Of the addresses in namespaces, none has the text of another whose segments are clean. -/
theorem IsFiled.eq_of_text_eq {path clean : ResourcePath} (hpath : path.IsFiled)
    (hother : clean.IsFiled) (hclean : ∀ segment ∈ clean.segments, IsClean segment)
    (htext : path.text = clean.text) : path = clean := by
  obtain ⟨head, rest, hsegments, hfirst, hlength⟩ := hpath.exists_head
  obtain ⟨head', rest', hsegments', hfirst', hlength'⟩ := hother.exists_head
  have hpathNe : path.segments ≠ [] := hsegments ▸ List.cons_ne_nil _ _
  have hcleanNe : clean.segments ≠ [] := hsegments' ▸ List.cons_ne_nil _ _
  -- the first pieces of the two texts are the first segments
  have hpieces := pieces_text hpathNe
  rw [htext, pieces_text_of_clean hcleanNe hclean, hsegments, hsegments', List.flatMap_cons,
    Delimited.pieces_of_not_mem hfirst] at hpieces
  have hchars : head'.toList = head.toList := (List.cons.inj (List.cons.inj hpieces).2).1
  have hsame : head' = head := String.toList_inj.1 hchars
  refine ResourcePath.eq_of_text_eq htext hclean hpathNe ?_
  rw [hsegments, hsegments', List.length_cons, List.length_cons, hlength, hlength', hsame]

end ResourcePath

/-! ## Where lumps are filed -/

/-- A namespace that a placer gives is that of a map only if it has the name of a lump. -/
theorem Placer.exists_marker_of_verdict {directory : LumpDirectory} {markers : MarkerTable}
    {shown : List LumpId} {id : LumpId} {map : String}
    (h : verdict directory markers shown id = some (.map map)) :
    ∃ marker : LumpName, map = marker.text := by
  unfold verdict at h
  split at h
  next name _ =>
    exact ⟨name, (Namespace.map.inj (Option.some.inj h)).symm⟩
  next => exact absurd h (namespaceFor?_ne_map markers id map)

namespace WadContainer

variable {σ : Type} [ByteSource σ] {context : OpenContext}

/-- The global classifier leaves every lump it may be asked about in the global namespace. -/
theorem identify_global (hglobal : context.classifier = .global) (source : σ)
    (entry : LumpEntry) : (identify context source entry).1 = Namespace.global.path := by
  unfold identify
  split
  · split
    · rfl
    · simp only
      split
      · rw [hglobal]
        rfl
      · rfl
  · rfl

/-- With the global classifier, every lump is filed in a namespace. -/
theorem isFiled_of_mem_filings (hglobal : context.classifier = .global)
    {container : WadContainer σ} {filing : Filing}
    (hmem : filing ∈ (container.filings context).1) : filing.path.IsFiled := by
  obtain ⟨entry, -, hfollows⟩ := exists_entry_of_mem_filings hmem
  have hdecision := List.mem_map_of_mem (f := Filing.decision) hmem
  rw [decisions_filings] at hdecision
  obtain ⟨lump, -, heq⟩ := List.mem_map.1 hdecision
  have hclaimed : _ = filing.claimed := (Prod.mk.inj heq).2
  unfold Filing.Follows at hfollows
  cases hspace : filing.claimed with
  | some space =>
    rw [hspace] at hfollows hclaimed
    rw [hfollows.1]
    refine .lump space entry.name ?_
    rintro map rfl
    exact Placer.exists_marker_of_verdict hclaimed
  | none =>
    rw [hspace] at hfollows
    obtain ⟨moved, hpath, -⟩ := hfollows
    rw [hpath, identify_global hglobal]
    exact .lump .global entry.name nofun

theorem isFiled_of_mem_addresses (hglobal : context.classifier = .global)
    {container : WadContainer σ} {path : ResourcePath}
    (hmem : path ∈ container.addresses context) : path.IsFiled := by
  obtain ⟨filing, hfiling, rfl⟩ := List.mem_map.1 hmem
  exact isFiled_of_mem_filings hglobal hfiling

end WadContainer

end WadCatalog
