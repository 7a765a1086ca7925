import WadCatalog.Lump.Name
import WadCatalog.Proofs.Text.Leading

/-
  What lossy text keeps.

  Reading bytes as text loses whatever is ill-formed.  It never loses or invents ASCII: the ASCII
  characters of the text are the bytes below `80`, one by one and in order (`asciiBytes_decodeLossy`).

  The induction goes over the bytes, with the state of the reader in between.  What carries it is a
  property of the states (`IsSound`): whatever bytes follow inside a character, as long as they stay
  within the bounds, the number that comes out is that of a character beyond ASCII.  It is so where a
  leading byte leads (`LeadsTo.isSound`), and each further byte leaves fewer numbers.

  It never loses everything either: a byte that nothing comes out for has started a character, and a
  character that is cut short is an ill-formed place.  So only no bytes read as no text
  (`decodeLossy_ne_empty`).
-/

namespace WadCatalog

namespace Utf8

/-! ## Sound states -/

/-- The number of a character beyond ASCII. -/
def IsBeyondAscii (number : Nat) : Prop := 0x80 ≤ number ∧ number.isValidChar

/-- That only characters beyond ASCII can come out of a state. -/
def IsSound : State → Prop
  | .start => True
  | .inside owed low high code => 0x80 ≤ low.toNat ∧ high.toNat ≤ 0xBF ∧
      ∀ number, least owed low code ≤ number → number < bound owed high code →
        IsBeyondAscii number

/-- Where a leading byte leads, no ASCII character can come out: none that is continued is one. -/
theorem LeadsTo.isSound {byte low high : UInt8} {owed code : Nat}
    (h : LeadsTo byte owed low high code) : IsSound (.inside owed low high code) := by
  refine ⟨h.low_ge, h.high_le, ?_⟩
  intro number hfirst hlast
  obtain ⟨hvalid, hlead⟩ := (h.inRange_iff number).1 ⟨hfirst, hlast⟩
  have howed := h.continuing_eq number hvalid hlead
  have hcases := lead_cases number
  exact ⟨by omega, hvalid⟩

theorem isSound_opening (byte : UInt8) : IsSound (opening byte).2 := by
  rcases opening_cases byte with ⟨-, hopening⟩ | ⟨-, hopening, -⟩ |
    ⟨-, owed, low, high, code, hopening, hleads⟩
  · rw [hopening]
    trivial
  · rw [hopening]
    trivial
  · rw [hopening]
    exact hleads.isSound

/-- After the first byte inside a character, the numbers are those that start with the bits so
far. -/
theorem least_tail (owed digits : Nat) :
    least owed 0x80 digits = digits * choices (owed + 1) :=
  Nat.mul_assoc digits 64 (choices owed)

theorem bound_tail (owed digits : Nat) :
    bound owed 0xBF digits = (digits + 1) * choices (owed + 1) := by
  have hnext : digits * 64 + 64 = (digits + 1) * 64 := by omega
  show (digits * 64 + 64) * choices owed = _
  rw [hnext, choices, Nat.mul_assoc]

/-- One more byte within the bounds leaves fewer numbers. -/
theorem range_subset {low high byte : UInt8} (hlow : 0x80 ≤ low.toNat) (hhigh : high.toNat ≤ 0xBF)
    (hbyte : low ≤ byte ∧ byte ≤ high) (owed code : Nat) :
    least owed low code ≤ (code * 64 + byte.toNat % 64) * choices owed ∧
      (code * 64 + byte.toNat % 64 + 1) * choices owed ≤ bound owed high code := by
  have hge := UInt8.le_iff_toNat_le.1 hbyte.1
  have hle := UInt8.le_iff_toNat_le.1 hbyte.2
  constructor
  · refine Nat.mul_le_mul_right _ ?_
    omega
  · refine Nat.mul_le_mul_right _ ?_
    omega

/-- What a byte can do inside a character: end it, complete it to a character beyond ASCII, or lead
on to a sound state without anything coming out. -/
theorem step_inside_cases {owed : Nat} {low high : UInt8} {code : Nat}
    (h : IsSound (.inside owed low high code)) (byte : UInt8) :
    step (.inside owed low high code) byte = (none :: (opening byte).1, (opening byte).2) ∨
      (0x80 ≤ byte.toNat ∧ ∃ number, IsBeyondAscii number ∧
        step (.inside owed low high code) byte = ([some (Char.ofNat number)], .start)) ∨
      (0x80 ≤ byte.toNat ∧ ∃ state, IsSound state ∧
        step (.inside owed low high code) byte = ([], state)) := by
  obtain ⟨hlow, hhigh, hrange⟩ := h
  by_cases hbyte : low ≤ byte ∧ byte ≤ high
  · have hge : 0x80 ≤ byte.toNat := Nat.le_trans hlow (UInt8.le_iff_toNat_le.1 hbyte.1)
    obtain ⟨hfirst, hlast⟩ := range_subset hlow hhigh hbyte owed code
    generalize hdigits : code * 64 + byte.toNat % 64 = digits at hfirst hlast
    right
    cases owed with
    | zero =>
      refine .inl ⟨hge, digits, hrange digits ?_ ?_, ?_⟩
      · rw [choices, Nat.mul_one] at hfirst
        exact hfirst
      · rw [choices, Nat.mul_one] at hlast
        exact hlast
      · rw [step, if_pos hbyte, ← hdigits]
    | succ owed =>
      refine .inr ⟨hge, .inside owed 0x80 0xBF digits, ⟨by decide, by decide, ?_⟩, ?_⟩
      · intro number hleast hbound
        rw [least_tail] at hleast
        rw [bound_tail] at hbound
        exact hrange number (Nat.le_trans hfirst hleast) (Nat.lt_of_lt_of_le hbound hlast)
      · rw [step, if_pos hbyte, ← hdigits]
  · left
    rw [step, if_neg hbyte]

/-! ## ASCII goes through -/

/-- The byte of an item, if the item is an ASCII character. -/
def asciiByte : Option Char → Bytes
  | some c => if c.toNat < 0x80 then [UInt8.ofNat c.toNat] else []
  | none => []

theorem toNat_ofNat {number : Nat} (h : number.isValidChar) :
    (Char.ofNat number).toNat = number := by
  rw [Char.ofNat, dif_pos h]
  rfl

/-- A byte is made of an ASCII number without loss. -/
theorem toNat_byte {number : Nat} (h : number < 0x80) : (UInt8.ofNat number).toNat = number :=
  UInt8.toNat_ofNat_of_lt' (Nat.lt_trans h (by decide))

/-- An ASCII character has its byte. -/
theorem mem_asciiByte {c : Char} (h : c.toNat < 0x80) :
    UInt8.ofNat c.toNat ∈ asciiByte (some c) := by
  rw [asciiByte, if_pos h]
  exact List.mem_cons_self

theorem asciiByte_of_isBeyondAscii {number : Nat} (h : IsBeyondAscii number) :
    asciiByte (some (Char.ofNat number)) = [] := by
  rw [asciiByte, toNat_ofNat h.2]
  exact if_neg (Nat.not_lt.2 h.1)

/-- The first byte of a character comes out as itself if it is ASCII, and not at all otherwise. -/
theorem flatMap_asciiByte_opening (byte : UInt8) :
    (opening byte).1.flatMap asciiByte = [byte].filter (·.toNat < 0x80) := by
  rcases opening_cases byte with ⟨hascii, hopening⟩ | ⟨hnone, hopening, -⟩ |
    ⟨hnone, owed, low, high, code, hopening, -⟩
  · have hvalid : byte.toNat.isValidChar := .inl (by omega)
    rw [hopening, List.filter_cons_of_pos (by simpa using hascii), List.flatMap_cons, asciiByte,
      toNat_ofNat hvalid, if_pos hascii, UInt8.ofNat_toNat]
    rfl
  · rw [hopening, List.filter_cons_of_neg (by simpa using hnone)]
    rfl
  · rw [hopening, List.filter_cons_of_neg (by simpa using hnone)]
    rfl

/-- **One byte.**  From a sound state, a byte leads to a sound state, and comes out as itself if it
is ASCII, and not at all otherwise. -/
theorem step_of_isSound {state : State} (h : IsSound state) (byte : UInt8) :
    IsSound (step state byte).2 ∧
      (step state byte).1.flatMap asciiByte = [byte].filter (·.toNat < 0x80) := by
  cases state with
  | start => exact ⟨isSound_opening byte, flatMap_asciiByte_opening byte⟩
  | inside owed low high code =>
    rcases step_inside_cases h byte with hstep | ⟨hge, number, hnumber, hstep⟩ |
      ⟨hge, next, hnext, hstep⟩
    · rw [hstep]
      exact ⟨isSound_opening byte, flatMap_asciiByte_opening byte⟩
    · rw [hstep, List.filter_cons_of_neg (by simpa using hge), List.flatMap_singleton]
      exact ⟨trivial, asciiByte_of_isBeyondAscii hnumber⟩
    · rw [hstep, List.filter_cons_of_neg (by simpa using hge)]
      exact ⟨hnext, rfl⟩

/-- Reading from a sound state, exactly the ASCII bytes come out as ASCII characters. -/
theorem flatMap_asciiByte_readFrom {state : State} (h : IsSound state) (bytes : Bytes) :
    (readFrom state bytes).flatMap asciiByte = bytes.filter (·.toNat < 0x80) := by
  induction bytes generalizing state with
  | nil => cases state <;> rfl
  | cons byte rest ih =>
    obtain ⟨hsound, hbyte⟩ := step_of_isSound h byte
    rw [readFrom, List.flatMap_append, hbyte, ih hsound, ← List.filter_append]
    rfl

/-- The ASCII characters of a text, as bytes. -/
def asciiBytes (text : String) : Bytes := text.toList.flatMap fun c => asciiByte (some c)

/-- **ASCII goes through.**  The ASCII characters of lossy text are the ASCII bytes it was read from,
in order. -/
theorem asciiBytes_decodeLossy (bytes : Bytes) :
    asciiBytes (decodeLossy bytes) = bytes.filter (·.toNat < 0x80) := by
  have hitem : ∀ item : Option Char,
      asciiByte (some (item.getD replacement)) = asciiByte item := by
    intro item
    cases item with
    | some c => rfl
    | none => decide
  rw [asciiBytes, decodeLossy, String.toList_ofList, List.flatMap_map]
  simp only [hitem]
  exact flatMap_asciiByte_readFrom (show IsSound .start from trivial) bytes

/-- An ASCII character of lossy text is one of the bytes it was read from. -/
theorem mem_of_mem_decodeLossy {bytes : Bytes} {c : Char} (h : c ∈ (decodeLossy bytes).toList)
    (hascii : c.toNat < 0x80) : UInt8.ofNat c.toNat ∈ bytes := by
  have hmem : UInt8.ofNat c.toNat ∈ asciiBytes (decodeLossy bytes) :=
    List.mem_flatMap.2 ⟨c, h, mem_asciiByte hascii⟩
  rw [asciiBytes_decodeLossy] at hmem
  exact (List.mem_filter.1 hmem).1

/-! ## Nothing is skipped -/

/-- A first byte that nothing comes out for leads into a character. -/
theorem opening_ne_start (byte : UInt8) :
    (opening byte).1 = [] → (opening byte).2 ≠ .start := by
  rcases opening_cases byte with ⟨-, hopening⟩ | ⟨-, hopening, -⟩ |
    ⟨-, owed, low, high, code, hopening, -⟩
  · rw [hopening]
    nofun
  · rw [hopening]
    nofun
  · rw [hopening]
    nofun

/-- So does any byte that nothing comes out for. -/
theorem step_ne_start {state : State} {byte : UInt8} (h : (step state byte).1 = []) :
    (step state byte).2 ≠ .start := by
  cases state with
  | start => exact opening_ne_start byte h
  | inside owed low high code =>
    rw [step] at h ⊢
    split at h
    next hbyte =>
      rw [if_pos hbyte]
      cases owed with
      | zero => cases h
      | succ owed => nofun
    next => cases h

/-- There is something to read as long as there are bytes, or a character has been started. -/
theorem readFrom_ne_nil {state : State} {bytes : Bytes} (h : state ≠ .start ∨ bytes ≠ []) :
    readFrom state bytes ≠ [] := by
  induction bytes generalizing state with
  | nil =>
    cases state with
    | start => exact absurd rfl (h.resolve_right (absurd rfl))
    | inside owed low high code => exact List.cons_ne_nil _ _
  | cons byte rest ih =>
    rw [readFrom]
    cases hitems : (step state byte).1 with
    | nil => exact ih (.inl (step_ne_start hitems))
    | cons item items => exact List.cons_ne_nil _ _

/-- Only no bytes read as no text. -/
theorem decodeLossy_ne_empty {bytes : Bytes} (h : bytes ≠ []) : decodeLossy bytes ≠ "" := by
  intro hempty
  have hchars := congrArg String.toList hempty
  rw [decodeLossy, String.toList_ofList] at hchars
  exact readFrom_ne_nil (.inr h) (List.map_eq_nil_iff.1 hchars)

end Utf8

/-! ## Names of lumps -/

/-- A text is its own upper case if each of its characters is. -/
theorem Ascii.upper_eq_self_iff {text : String} :
    upper text = text ↔ ∀ c ∈ text.toList, c.toUpper = c := by
  rw [← String.toList_inj, upper, String.toList_ofList]
  constructor
  · intro h c hmem
    exact List.map_inj_left.1 (h.trans (List.map_id _).symm) c hmem
  · intro h
    exact (List.map_congr_left h).trans (List.map_id _)

/-- The text of a name has no lower-case ASCII letter: its bytes have none. -/
theorem LumpName.upper_text (name : LumpName) : Ascii.upper name.text = name.text := by
  refine Ascii.upper_eq_self_iff.2 ?_
  intro c hmem
  by_cases hlower : 0x61 ≤ c.toNat ∧ c.toNat ≤ 0x7a
  · have hbyte := Utf8.mem_of_mem_decodeLossy hmem (by omega)
    have hfixed := not_isLower_of_mem hbyte
    rw [Ascii.IsLower, Utf8.toNat_byte (by omega)] at hfixed
    exact absurd hlower hfixed
  · exact dif_neg fun hrange => hlower hrange

end WadCatalog
