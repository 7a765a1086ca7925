import WadCatalog.Proofs.Text.Encoding

/-
  Where lossy text can be cut.

  What a byte is read as depends on its neighbours: a byte that cannot go on with a character ends it,
  and is then read again.  An ASCII byte can go on with none.  So it always comes out as itself, with
  all that is before it read as if nothing followed, and all behind it as if nothing had been before:

  1. **From bytes to text** (`readFrom_append_cons`).  An ASCII byte cuts the reading in two.
  2. **From text to bytes** (`exists_cut`).  An ASCII character was such a byte, and the text before and
     behind it is that of the bytes before and behind.  The induction goes over the bytes, with the
     state of the reader in between; no other byte brings out an ASCII character.

  Then a text ends in some ASCII characters exactly if its bytes do, with the rest of the bytes read as
  the rest of the text (`decodeLossy_eq_append_iff`), however ill-formed these are.
-/

namespace WadCatalog.Utf8

/-- A text of ASCII characters alone. -/
def IsAscii (text : String) : Prop := ∀ c ∈ text.toList, c.toNat < 0x80

instance (text : String) : Decidable (IsAscii text) :=
  List.decidableBAll (fun c : Char => c.toNat < 0x80) text.toList

/-! ## From bytes to text -/

/-- An ASCII byte ends whatever was begun, and comes out behind it. -/
theorem step_of_ascii {state : State} (h : IsSound state) {byte : UInt8}
    (hascii : byte.toNat < 0x80) :
    step state byte = (closing state ++ [some (Char.ofNat byte.toNat)], .start) := by
  have hopening : opening byte = ([some (Char.ofNat byte.toNat)], .start) := by
    rcases opening_cases byte with ⟨-, hopening⟩ | ⟨hge, -⟩ | ⟨hge, -⟩
    · exact hopening
    · omega
    · omega
  cases state with
  | start => exact hopening
  | inside owed low high code =>
    rcases step_inside_cases h byte with hstep | ⟨hge, -⟩ | ⟨hge, -⟩
    · rw [hstep, hopening]
      rfl
    · omega
    · omega

/-- **From bytes to text.**  An ASCII byte cuts the reading in two. -/
theorem readFrom_append_cons {state : State} (h : IsSound state) (front : Bytes) {byte : UInt8}
    (hascii : byte.toNat < 0x80) (rest : Bytes) :
    readFrom state (front ++ byte :: rest) =
      readFrom state front ++ some (Char.ofNat byte.toNat) :: read rest := by
  induction front generalizing state with
  | nil =>
    show (step state byte).1 ++ readFrom (step state byte).2 rest = _
    rw [step_of_ascii h hascii, List.append_assoc]
    rfl
  | cons first front ih =>
    rw [List.cons_append, readFrom, ih (step_of_isSound h first).1, readFrom, List.append_assoc]

/-! ## From text to bytes -/

/-- If an element of two lists in a row is not in the first, then it is in the second. -/
theorem exists_append_of_not_mem {α : Type} {front back items others : List α} {x : α}
    (h : front ++ back = items ++ x :: others) (hx : x ∉ front) :
    ∃ more, items = front ++ more ∧ back = more ++ x :: others := by
  rcases List.append_eq_append_iff.1 h with ⟨more, hitems, hback⟩ | ⟨more, hfront, hothers⟩
  · exact ⟨more, hitems, hback⟩
  · cases more with
    | nil =>
      rw [List.append_nil] at hfront
      exact ⟨[], by rw [hfront, List.append_nil], hothers.symm⟩
    | cons y more =>
      rw [(List.cons.inj hothers).1, hfront] at hx
      exact absurd (List.mem_append_right items List.mem_cons_self) hx

/-- The end of the bytes brings no character. -/
theorem some_not_mem_closing (state : State) (c : Char) : some c ∉ closing state := by
  cases state with
  | start => exact List.not_mem_nil
  | inside => simp [closing]

/-- Nor does a byte beyond ASCII bring one of ASCII. -/
theorem some_not_mem_step {state : State} (h : IsSound state) {byte : UInt8}
    (hbyte : ¬ byte.toNat < 0x80) {c : Char} (hascii : c.toNat < 0x80) :
    some c ∉ (step state byte).1 := by
  intro hmem
  have hcome : UInt8.ofNat c.toNat ∈ (step state byte).1.flatMap asciiByte :=
    List.mem_flatMap.2 ⟨some c, hmem, mem_asciiByte hascii⟩
  rw [(step_of_isSound h byte).2, List.filter_cons_of_neg (by simpa using hbyte)] at hcome
  cases hcome

/-- **From text to bytes.**  Where an ASCII character comes out, there was its byte, and what comes out
before and behind it is read from the bytes before and behind. -/
theorem exists_cut {state : State} (h : IsSound state) {bytes : Bytes}
    {items others : List (Option Char)} {c : Char} (hascii : c.toNat < 0x80)
    (hread : readFrom state bytes = items ++ some c :: others) :
    ∃ front rest, bytes = front ++ UInt8.ofNat c.toNat :: rest ∧ readFrom state front = items ∧
      read rest = others := by
  induction bytes generalizing state items with
  | nil =>
    rw [readFrom] at hread
    have hmem : some c ∈ closing state := hread ▸ List.mem_append_right _ List.mem_cons_self
    exact absurd hmem (some_not_mem_closing state c)
  | cons byte rest ih =>
    rw [readFrom] at hread
    by_cases hbyte : byte.toNat < 0x80
    · rw [step_of_ascii h hbyte, List.append_assoc] at hread
      obtain ⟨more, hitems, hback⟩ :=
        exists_append_of_not_mem hread (some_not_mem_closing state c)
      cases more with
      | nil =>
        -- this is the byte of the character
        obtain ⟨hsame, hothers⟩ := List.cons.inj hback
        have hnumber : byte.toNat = c.toNat := by
          rw [← Option.some.inj hsame, toNat_ofNat (.inl (by omega))]
        refine ⟨[], rest, ?_, ?_, hothers⟩
        · rw [← hnumber, UInt8.ofNat_toNat]
          rfl
        · rw [hitems, List.append_nil, readFrom]
      | cons item more =>
        obtain ⟨hsame, hrest⟩ := List.cons.inj hback
        have hstart : IsSound .start := trivial
        obtain ⟨front, behind, hbytes, hfront, hbehind⟩ := ih hstart hrest
        refine ⟨byte :: front, behind, by rw [hbytes, List.cons_append], ?_, hbehind⟩
        rw [readFrom, step_of_ascii h hbyte, hfront, hitems, ← hsame, List.append_assoc]
        rfl
    · obtain ⟨more, hitems, hback⟩ :=
        exists_append_of_not_mem hread (some_not_mem_step h hbyte hascii)
      obtain ⟨front, behind, hbytes, hfront, hbehind⟩ := ih (step_of_isSound h byte).1 hback
      refine ⟨byte :: front, behind, by rw [hbytes, List.cons_append], ?_, hbehind⟩
      rw [readFrom, hfront, hitems]

/-! ## Lossy text -/

/-- ASCII characters are never those that stand for an ill-formed place. -/
theorem IsAscii.replacement_not_mem {text : String} (h : IsAscii text) :
    replacement ∉ text.toList := fun hmem => absurd (h _ hmem) (by decide)

/-- Only its own bytes read as an ASCII text. -/
theorem decodeLossy_eq_iff {bytes : Bytes} {text : String} (h : IsAscii text) :
    decodeLossy bytes = text ↔ bytes = encode text := by
  constructor
  · rintro rfl
    exact (encode_decodeLossy h.replacement_not_mem).symm
  · rintro rfl
    exact decodeLossy_encode text

/-- The bytes of a text that starts with an ASCII character. -/
theorem encode_eq_cons {text : String} {c : Char} {rest : List Char} (h : c.toNat < 0x80)
    (htext : text.toList = c :: rest) :
    encode text = UInt8.ofNat c.toNat :: encode (String.ofList rest) := by
  rw [encode, htext, List.flatMap_cons, utf8EncodeChar_of_ascii h, encode, String.toList_ofList]
  rfl

/-- The bytes of an ASCII text are read as that text, whatever is before them. -/
theorem decodeLossy_append_encode (front : Bytes) {ending : String} (h : IsAscii ending) :
    decodeLossy (front ++ encode ending) = decodeLossy front ++ ending := by
  cases hchars : ending.toList with
  | nil =>
    cases String.toList_eq_nil_iff.1 hchars
    rw [String.append_empty]
    exact congrArg decodeLossy (List.append_nil front)
  | cons c rest =>
    have hc : c.toNat < 0x80 := h c (hchars ▸ List.mem_cons_self)
    have hnumber : (UInt8.ofNat c.toNat).toNat = c.toNat := toNat_byte hc
    have hbyte : (UInt8.ofNat c.toNat).toNat < 0x80 := by
      rw [hnumber]
      exact hc
    have hstart : IsSound .start := trivial
    have hread : read (front ++ encode ending) = read front ++ ending.toList.map some := by
      rw [encode_eq_cons hc hchars, read, readFrom_append_cons hstart front hbyte, read_encode,
        hnumber, Char.ofNat_toNat, String.toList_ofList, hchars, List.map_cons]
      rfl
    rw [decodeLossy, hread, List.map_append, List.map_map, String.ofList_append]
    exact congrArg (decodeLossy front ++ ·)
      ((congrArg String.ofList (List.map_id _)).trans String.ofList_toList)

/-- **Endings.**  A text ends in an ASCII text exactly if its bytes do, and then the rest of the bytes
reads as the rest of the text. -/
theorem decodeLossy_eq_append_iff {bytes : Bytes} {front ending : String} (h : IsAscii ending) :
    decodeLossy bytes = front ++ ending ↔
      ∃ before, bytes = before ++ encode ending ∧ decodeLossy before = front := by
  constructor
  · intro htext
    cases hchars : ending.toList with
    | nil =>
      cases String.toList_eq_nil_iff.1 hchars
      rw [String.append_empty] at htext
      exact ⟨bytes, (List.append_nil bytes).symm, htext⟩
    | cons c rest =>
      have hc : c.toNat < 0x80 := h c (hchars ▸ List.mem_cons_self)
      have hitems : (read bytes).map (·.getD replacement) = front.toList ++ c :: rest := by
        rw [← hchars, ← String.toList_append, ← htext, decodeLossy, String.toList_ofList]
      obtain ⟨items, behind, hread, hfront, hbehind⟩ := List.map_eq_append_iff.1 hitems
      obtain ⟨item, others, rfl, hitem, hothers⟩ := List.map_eq_cons_iff.1 hbehind
      have hsome : item = some c := by
        cases item with
        | some d => exact congrArg some hitem
        | none =>
          rw [← hitem] at hc
          exact absurd hc (by decide)
      rw [hsome] at hread
      have hstart : IsSound .start := trivial
      obtain ⟨before, after, hbytes, hbefore, hafter⟩ := exists_cut hstart hc hread
      -- what is behind the first character of the ending is the rest of it
      have hrest : decodeLossy after = String.ofList rest := by
        rw [decodeLossy, hafter, hothers]
      have hascii : IsAscii (String.ofList rest) := by
        intro d hd
        rw [String.toList_ofList] at hd
        exact h d (hchars ▸ List.mem_cons_of_mem _ hd)
      refine ⟨before, ?_, ?_⟩
      · rw [hbytes, encode_eq_cons hc hchars, (decodeLossy_eq_iff hascii).1 hrest]
      · rw [decodeLossy, read, hbefore, hfront, String.ofList_toList]
  · rintro ⟨before, rfl, rfl⟩
    exact decodeLossy_append_encode before h

example : decodeLossy [0xE2, 0x82, 0x5F, 0x45, 0x4E, 0x44] = "\uFFFD_END" := by decide

end WadCatalog.Utf8
