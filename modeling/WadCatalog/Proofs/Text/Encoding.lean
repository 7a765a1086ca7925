import WadCatalog.Proofs.Text.Lossy

/-
  Texts and their bytes.

  A character is written as one leading byte and some bytes that continue it, and both come out of its
  number by division: the continuing bytes hold the last digits of the number to the base 64, the
  leading byte holds what is left.  Three things about names depend on that.

  1. **Order** (`encode_lt_encode`).  A greater number never has a smaller leading byte, and numbers
     with one leading byte differ in their digits.  So texts are ordered as their bytes are, character
     by character, although characters differ in length.
  2. **Reading what was written** (`decodeLossy_encode`).  The leading byte of a character leads to
     where its number can come out, and from there each digit is the one that goes on to the number.
  3. **Reading back** (`encode_decodeLossy`).  Bytes without an ill-formed place are the bytes of their
     text, so no two of them read the same.  The induction is on the bytes.  What carries it is that
     a reader inside a character knows the bytes so far (`HasRead`): every number that can still come
     out is written with exactly these bytes in front.
-/

namespace WadCatalog

namespace Utf8

/-! ## The bytes of a number -/

/-- The last digits of a number to the base 64, as the bytes that continue a character. -/
def digits : (count number : Nat) → Bytes
  | 0, _ => []
  | count + 1, number => UInt8.ofNat (number / choices count % 64 + 0x80) :: digits count number

/-- All bytes of the character with the given number. -/
def bytesOf (number : Nat) : Bytes := UInt8.ofNat (lead number) :: digits (continuing number) number

theorem toNat_lt (c : Char) : c.toNat < 0x110000 := by
  rcases c.valid with h | h
  · exact Nat.lt_trans h (by decide)
  · exact h.2

/-- A character is written with the bytes of its number. -/
theorem utf8EncodeChar_eq (c : Char) : String.utf8EncodeChar c = bytesOf c.toNat := by
  have hbound := toNat_lt c
  have hnumber : c.val.toNat = c.toNat := rfl
  rw [String.utf8EncodeChar, bytesOf]
  simp only [hnumber]
  rcases lead_cases c.toNat with ⟨hlt, howed, hlead⟩ | ⟨hge, hlt, howed, hlead⟩ |
    ⟨hge, hlt, howed, hlead⟩ | ⟨hge, howed, hlead⟩
  · rw [if_pos (by omega), howed, hlead]
    rfl
  · have hfirst : c.toNat / 64 % 32 = c.toNat / 64 := by omega
    rw [if_neg (by omega), if_pos (by omega), howed, hlead, hfirst]
    simp [digits, choices, Nat.add_comm]
  · have hfirst : c.toNat / 4096 % 16 = c.toNat / 4096 := by omega
    rw [if_neg (by omega), if_neg (by omega), if_pos (by omega), howed, hlead, hfirst]
    simp [digits, choices, Nat.add_comm]
  · have hfirst : c.toNat / 262144 % 8 = c.toNat / 262144 := by omega
    rw [if_neg (by omega), if_neg (by omega), if_neg (by omega), howed, hlead, hfirst]
    simp [digits, choices, Nat.add_comm]

/-! ## Order -/

theorem choices_pos (owed : Nat) : 0 < choices owed := by
  induction owed with
  | zero => decide
  | succ owed ih => exact Nat.mul_pos (by decide) ih

/-- Two small numbers are ordered as the bytes that are made of them by adding a constant. -/
theorem ofNat_lt_ofNat {m n : Nat} (h : m < n) (hn : n < 256) : UInt8.ofNat m < UInt8.ofNat n := by
  rw [UInt8.lt_iff_toNat_lt, UInt8.toNat_ofNat_of_lt' (Nat.lt_trans h hn),
    UInt8.toNat_ofNat_of_lt' hn]
  exact h

/-- Of two numbers, the digits of the one with the smaller rest are the smaller ones. -/
theorem digits_append_lt (count : Nat) {m n : Nat} (h : m % choices count < n % choices count)
    (front back : Bytes) : digits count m ++ front < digits count n ++ back := by
  induction count with
  | zero =>
    rw [choices, Nat.mod_one, Nat.mod_one] at h
    exact absurd h (Nat.lt_irrefl 0)
  | succ count ih =>
    have hpos := choices_pos count
    have hm := Nat.mod_mul (a := choices count) (b := 64) (x := m)
    have hn := Nat.mod_mul (a := choices count) (b := 64) (x := n)
    rw [choices, Nat.mul_comm, hm, hn] at h
    have hmrest := Nat.mod_lt m hpos
    rw [digits, digits, List.cons_append, List.cons_append, List.cons_lt_cons_iff]
    rcases Nat.lt_trichotomy (m / choices count % 64) (n / choices count % 64) with hlt | heq | hgt
    · exact Or.inl (ofNat_lt_ofNat (by omega) (by omega))
    · rw [heq] at h ⊢
      exact Or.inr ⟨rfl, ih (by omega)⟩
    · -- the digit in front outweighs the rest
      have hover := Nat.mul_le_mul_left (choices count) (Nat.succ_le_of_lt hgt)
      have hnrest := Nat.mod_lt n hpos
      rw [Nat.mul_succ] at hover
      omega

/-- A greater number never has a smaller leading byte; if it has the same one, it is continued by as
many bytes. -/
theorem lead_mono {m n : Nat} (h : m < n) :
    lead m < lead n ∨ lead m = lead n ∧ continuing m = continuing n := by
  rcases lead_cases m with ⟨hlt, howed, hlead⟩ | ⟨hge, hlt, howed, hlead⟩ |
      ⟨hge, hlt, howed, hlead⟩ | ⟨hge, howed, hlead⟩ <;>
    rcases lead_cases n with ⟨hlt', howed', hlead'⟩ | ⟨hge', hlt', howed', hlead'⟩ |
        ⟨hge', hlt', howed', hlead'⟩ | ⟨hge', howed', hlead'⟩ <;>
      omega

theorem lead_lt {number : Nat} (h : number < 0x110000) : lead number < 256 := by
  rcases lead_cases number with ⟨hlt, howed, hlead⟩ | ⟨hge, hlt, howed, hlead⟩ |
      ⟨hge, hlt, howed, hlead⟩ | ⟨hge, howed, hlead⟩ <;>
    omega

/-- Of two characters, the one with the smaller number has the smaller bytes, whatever follows. -/
theorem bytesOf_append_lt {m n : Nat} (h : m < n) (hn : n < 0x110000) (front back : Bytes) :
    bytesOf m ++ front < bytesOf n ++ back := by
  rw [bytesOf, bytesOf, List.cons_append, List.cons_append, List.cons_lt_cons_iff]
  rcases lead_mono h with hlt | ⟨heq, hsame⟩
  · exact Or.inl (ofNat_lt_ofNat hlt (lead_lt hn))
  · -- with the same leading byte, the digits decide
    have hquotient : m / choices (continuing n) = n / choices (continuing n) := by
      rw [lead, lead, hsame] at heq
      omega
    have hm := Nat.div_add_mod m (choices (continuing n))
    have hn := Nat.div_add_mod n (choices (continuing n))
    rw [hquotient] at hm
    rw [heq, hsame]
    exact Or.inr ⟨rfl, digits_append_lt _ (by omega) front back⟩

/-- Behind a common front, lists are ordered as what follows. -/
theorem append_lt_append_left {front left right : Bytes} (h : left < right) :
    front ++ left < front ++ right := by
  induction front with
  | nil => exact h
  | cons byte rest ih => exact List.cons_lt_cons_iff.2 (Or.inr ⟨rfl, ih⟩)

/-- **Order.**  Texts are ordered as their bytes are. -/
theorem encode_lt_encode {left right : String} (h : left < right) : encode left < encode right := by
  have hchars := String.lt_iff.1 h
  unfold encode
  generalize left.toList = front at hchars
  generalize right.toList = back at hchars
  induction front generalizing back with
  | nil =>
    cases back with
    | nil => exact absurd hchars (List.lt_irrefl [])
    | cons c rest =>
      rw [List.flatMap_nil, List.flatMap_cons, utf8EncodeChar_eq, bytesOf]
      exact List.nil_lt_cons _ _
  | cons c front ih =>
    cases back with
    | nil => exact absurd hchars (List.not_lt_nil _)
    | cons d back =>
      rw [List.flatMap_cons, List.flatMap_cons]
      rcases List.cons_lt_cons_iff.1 hchars with hlt | ⟨rfl, hrest⟩
      · rw [utf8EncodeChar_eq, utf8EncodeChar_eq]
        exact bytesOf_append_lt ((show c.toNat < d.toNat from hlt)) (toNat_lt d) _ _
      · exact append_lt_append_left (ih back hrest)

/-! ## ASCII -/

/-- The bytes that continue a character are none of ASCII. -/
theorem le_of_mem_digits {count number : Nat} {byte : UInt8} (h : byte ∈ digits count number) :
    0x80 ≤ byte.toNat := by
  induction count with
  | zero => cases h
  | succ count ih =>
    rw [digits] at h
    rcases List.mem_cons.1 h with rfl | hrest
    · rw [UInt8.toNat_ofNat_of_lt' (by show _ < 256; omega)]
      omega
    · exact ih hrest

/-- The bytes of a character beyond ASCII are none of ASCII either. -/
theorem eq_of_mem_bytesOf {number : Nat} (hnumber : number < 0x110000) {byte : UInt8}
    (h : byte ∈ bytesOf number) (hascii : byte.toNat < 0x80) : byte.toNat = number := by
  rw [bytesOf] at h
  rcases List.mem_cons.1 h with rfl | hdigits
  · rw [UInt8.toNat_ofNat_of_lt' (lead_lt hnumber)] at hascii ⊢
    have hcases := lead_cases number
    omega
  · exact absurd (le_of_mem_digits hdigits) (Nat.not_le.2 hascii)

/-- An ASCII byte of a text is one of its characters. -/
theorem mem_of_mem_encode {text : String} {byte : UInt8} (h : byte ∈ encode text)
    (hascii : byte.toNat < 0x80) : Char.ofNat byte.toNat ∈ text.toList := by
  obtain ⟨c, hc, hbyte⟩ := List.mem_flatMap.1 h
  rw [utf8EncodeChar_eq] at hbyte
  have hnumber := eq_of_mem_bytesOf (toNat_lt c) hbyte hascii
  rw [hnumber, Char.ofNat_toNat]
  exact hc

/-- An ASCII character is written as one byte. -/
theorem utf8EncodeChar_of_ascii {c : Char} (h : c.toNat < 0x80) :
    String.utf8EncodeChar c = [UInt8.ofNat c.toNat] := by
  rcases lead_cases c.toNat with ⟨-, howed, hlead⟩ | ⟨hge, -⟩ | ⟨hge, -⟩ | ⟨hge, -⟩
  · rw [utf8EncodeChar_eq, bytesOf, howed, hlead]
    rfl
  · omega
  · omega
  · omega

/-- Only the empty text has no bytes. -/
theorem encode_ne_nil {text : String} (h : text ≠ "") : encode text ≠ [] := by
  intro hnil
  apply h
  rw [← String.toList_inj]
  cases hchars : text.toList with
  | nil => rfl
  | cons c rest =>
    rw [encode, hchars, List.flatMap_cons, utf8EncodeChar_eq] at hnil
    cases hnil

/-! ## Reading what was written -/

/-- The first digit that is owed lies within the bounds, and goes on with the bits so far. -/
theorem first_digit {owed : Nat} {low high : UInt8} {code number : Nat} (hlow : 0x80 ≤ low.toNat)
    (hhigh : 0x80 ≤ high.toNat ∧ high.toNat ≤ 0xBF) (hfirst : least owed low code ≤ number)
    (hlast : number < bound owed high code) :
    let byte := UInt8.ofNat (number / choices owed % 64 + 0x80)
    (low ≤ byte ∧ byte ≤ high) ∧ code * 64 + byte.toNat % 64 = number / choices owed := by
  have hpos := choices_pos owed
  have hge : code * 64 + (low.toNat - 0x80) ≤ number / choices owed :=
    (Nat.le_div_iff_mul_le hpos).2 hfirst
  have hlt : number / choices owed < code * 64 + (high.toNat - 0x80) + 1 :=
    (Nat.div_lt_iff_lt_mul hpos).2 hlast
  have hbyte : (UInt8.ofNat (number / choices owed % 64 + 0x80)).toNat =
      number / choices owed % 64 + 0x80 :=
    UInt8.toNat_ofNat_of_lt' (by show _ < 256; omega)
  refine ⟨⟨UInt8.le_iff_toNat_le.2 ?_, UInt8.le_iff_toNat_le.2 ?_⟩, ?_⟩
  · omega
  · omega
  · omega

/-- Inside a character, the digits that are owed complete it, whatever follows. -/
theorem readFrom_digits {owed : Nat} {low high : UInt8} {code number : Nat}
    (hlow : 0x80 ≤ low.toNat) (hhigh : 0x80 ≤ high.toNat ∧ high.toNat ≤ 0xBF)
    (hfirst : least owed low code ≤ number) (hlast : number < bound owed high code)
    (rest : Bytes) :
    readFrom (.inside owed low high code) (digits (owed + 1) number ++ rest) =
      some (Char.ofNat number) :: readFrom .start rest := by
  induction owed generalizing low high code with
  | zero =>
    obtain ⟨hbounds, hcode⟩ := first_digit hlow hhigh hfirst hlast
    rw [digits, digits, List.cons_append, readFrom, step, if_pos hbounds, hcode, choices,
      Nat.div_one]
    rfl
  | succ owed ih =>
    obtain ⟨hbounds, hcode⟩ := first_digit hlow hhigh hfirst hlast
    rw [digits, List.cons_append, readFrom, step, if_pos hbounds, hcode]
    refine ih (by decide) (by decide) ?_ ?_
    · rw [least_tail]
      exact Nat.div_mul_le_self _ _
    · rw [bound_tail, Nat.mul_comm]
      exact Nat.lt_mul_div_succ number (choices_pos (owed + 1))

/-- The leading byte of a character is the character, or leads to where its number can come out. -/
theorem opening_lead {number : Nat} (hvalid : number.isValidChar) :
    (continuing number = 0 ∧
        opening (UInt8.ofNat (lead number)) = ([some (Char.ofNat number)], .start)) ∨
      ∃ owed low high code, continuing number = owed + 1 ∧
        opening (UInt8.ofNat (lead number)) = ([], .inside owed low high code) ∧
        0x80 ≤ low.toNat ∧ (0x80 ≤ high.toNat ∧ high.toNat ≤ 0xBF) ∧
        least owed low code ≤ number ∧ number < bound owed high code := by
  have hlt : number < 0x110000 := by
    unfold Nat.isValidChar at hvalid
    omega
  have hbyte : (UInt8.ofNat (lead number)).toNat = lead number :=
    UInt8.toNat_ofNat_of_lt' (lead_lt hlt)
  rcases opening_cases (UInt8.ofNat (lead number)) with ⟨hascii, hopening⟩ | ⟨-, -, hnone⟩ |
    ⟨-, owed, low, high, code, hopening, hleads⟩
  · rw [hbyte] at hascii hopening
    have hcases := lead_cases number
    obtain ⟨howed, hsame⟩ : continuing number = 0 ∧ lead number = number := by omega
    rw [hsame] at hopening ⊢
    exact .inl ⟨howed, hopening⟩
  · exact absurd hbyte.symm (hnone number hvalid)
  · exact .inr ⟨owed, low, high, code, hleads.continuing_eq number hvalid hbyte.symm, hopening,
      hleads.low_ge, ⟨hleads.high_ge, hleads.high_le⟩,
      (hleads.inRange_iff number).2 ⟨hvalid, hbyte.symm⟩⟩

/-- A character is read back from its bytes, whatever follows. -/
theorem readFrom_utf8EncodeChar (c : Char) (rest : Bytes) :
    readFrom .start (String.utf8EncodeChar c ++ rest) = some c :: readFrom .start rest := by
  have hvalid : c.toNat.isValidChar := c.valid
  rw [utf8EncodeChar_eq, bytesOf, List.cons_append, readFrom, step]
  rcases opening_lead hvalid with ⟨howed, hopening⟩ |
    ⟨owed, low, high, code, howed, hopening, hlow, hhigh, hfirst, hlast⟩
  · rw [howed, hopening, Char.ofNat_toNat]
    rfl
  · rw [howed, hopening, readFrom_digits hlow hhigh hfirst hlast, Char.ofNat_toNat]
    rfl

/-- The characters of a text are read back from its bytes. -/
theorem read_encode (text : String) : read (encode text) = text.toList.map some := by
  rw [read, encode]
  induction text.toList with
  | nil => rfl
  | cons c rest ih => rw [List.flatMap_cons, readFrom_utf8EncodeChar, ih, List.map_cons]

/-- **Reading what was written.**  A text is read back from its bytes. -/
theorem decodeLossy_encode (text : String) : decodeLossy (encode text) = text := by
  rw [decodeLossy, read_encode, List.map_map, ← String.toList_inj, String.toList_ofList]
  exact List.map_id _

/-! ## Reading back -/

/-- What a reader has read of a character: every number that can still come out is that of a
character, and is written with these bytes in front of the digits that are owed. -/
def HasRead (front : Bytes) : State → Prop
  | .start => front = []
  | .inside owed low high code => 0x80 ≤ low.toNat ∧ high.toNat ≤ 0xBF ∧
      ∀ number, least owed low code ≤ number → number < bound owed high code →
        number.isValidChar ∧ bytesOf number = front ++ digits (owed + 1) number

theorem hasRead_start : HasRead [] .start := rfl

/-- Where it leads, a leading byte has been read: all numbers that can come out start with it. -/
theorem LeadsTo.hasRead {byte low high : UInt8} {owed code : Nat}
    (h : LeadsTo byte owed low high code) : HasRead [byte] (.inside owed low high code) := by
  refine ⟨h.low_ge, h.high_le, ?_⟩
  intro number hfirst hlast
  obtain ⟨hvalid, hlead⟩ := (h.inRange_iff number).1 ⟨hfirst, hlast⟩
  refine ⟨hvalid, ?_⟩
  rw [bytesOf, h.continuing_eq number hvalid hlead, hlead, UInt8.ofNat_toNat]
  rfl

/-- What the first byte of a character can do: be ill-formed, be a character, or lead into one. -/
theorem opening_reads (byte : UInt8) :
    none ∈ (opening byte).1 ∨
      (∃ c, opening byte = ([some c], .start) ∧ bytesOf c.toNat = [byte]) ∨
      (opening byte).1 = [] ∧ HasRead [byte] (opening byte).2 := by
  rcases opening_cases byte with ⟨hascii, hopening⟩ | ⟨-, hopening, -⟩ |
    ⟨-, owed, low, high, code, hopening, hleads⟩
  · refine .inr (.inl ⟨_, hopening, ?_⟩)
    have hvalid : byte.toNat.isValidChar := .inl (by omega)
    have hcases := lead_cases byte.toNat
    obtain ⟨howed, hsame⟩ : continuing byte.toNat = 0 ∧ lead byte.toNat = byte.toNat := by omega
    rw [toNat_ofNat hvalid, bytesOf, howed, hsame, UInt8.ofNat_toNat]
    rfl
  · rw [hopening]
    exact .inl List.mem_cons_self
  · rw [hopening]
    exact .inr (.inr ⟨rfl, hleads.hasRead⟩)

/-- **One byte.**  With some bytes of a character read, the next byte brings an ill-formed place, or
completes the character that is written with all of them, or is read as well. -/
theorem HasRead.step {front : Bytes} {state : State} (h : HasRead front state) (byte : UInt8) :
    none ∈ (step state byte).1 ∨
      (∃ c, step state byte = ([some c], .start) ∧ bytesOf c.toNat = front ++ [byte]) ∨
      (step state byte).1 = [] ∧ HasRead (front ++ [byte]) (step state byte).2 := by
  cases state with
  | start =>
    cases (show front = [] from h)
    exact opening_reads byte
  | inside owed low high code =>
    obtain ⟨hlow, hhigh, hrange⟩ := h
    by_cases hbyte : low ≤ byte ∧ byte ≤ high
    · have hge : 0x80 ≤ byte.toNat := Nat.le_trans hlow (UInt8.le_iff_toNat_le.1 hbyte.1)
      have hle : byte.toNat ≤ 0xBF := Nat.le_trans (UInt8.le_iff_toNat_le.1 hbyte.2) hhigh
      obtain ⟨hfirst, hlast⟩ := range_subset hlow hhigh hbyte owed code
      have hdigit : (code * 64 + byte.toNat % 64) % 64 + 0x80 = byte.toNat := by omega
      generalize hvalue : code * 64 + byte.toNat % 64 = value at hfirst hlast hdigit
      -- the byte is the next digit of every number that can still come out
      have hnext : ∀ number, number / choices owed = value →
          digits (owed + 1) number = byte :: digits owed number := by
        intro number hquotient
        rw [digits, hquotient, hdigit, UInt8.ofNat_toNat]
      cases owed with
      | zero =>
        rw [choices, Nat.mul_one] at hfirst hlast
        obtain ⟨hvalid, hbytes⟩ := hrange value hfirst hlast
        refine .inr (.inl ⟨Char.ofNat value, ?_, ?_⟩)
        · rw [Utf8.step, if_pos hbyte, ← hvalue]
        · rw [toNat_ofNat hvalid, hbytes, hnext value (Nat.div_one value)]
          rfl
      | succ owed =>
        have hstep : Utf8.step (.inside (owed + 1) low high code) byte =
            ([], .inside owed 0x80 0xBF value) := by
          rw [Utf8.step, if_pos hbyte, ← hvalue]
        rw [hstep]
        refine .inr (.inr ⟨rfl, by decide, by decide, ?_⟩)
        intro number hleast hbound
        rw [least_tail] at hleast
        rw [bound_tail] at hbound
        obtain ⟨hvalid, hbytes⟩ :=
          hrange number (Nat.le_trans hfirst hleast) (Nat.lt_of_lt_of_le hbound hlast)
        have hquotient : number / choices (owed + 1) = value :=
          Nat.div_eq_of_lt_le hleast hbound
        refine ⟨hvalid, ?_⟩
        rw [hbytes, hnext number hquotient, List.append_assoc]
        rfl
    · refine .inl ?_
      rw [Utf8.step, if_neg hbyte]
      exact List.mem_cons_self

/-- Bytes that are read without an ill-formed place are, behind what was read before, the bytes of
the characters that come out. -/
theorem HasRead.append_eq {front bytes : Bytes} {state : State} (h : HasRead front state)
    {chars : List Char} (hread : readFrom state bytes = chars.map some) :
    front ++ bytes = chars.flatMap String.utf8EncodeChar := by
  induction bytes generalizing front state chars with
  | nil =>
    cases state with
    | start =>
      cases (show front = [] from h)
      cases chars with
      | nil => rfl
      | cons c rest => cases hread
    | inside owed low high code =>
      cases chars with
      | nil => cases hread
      | cons c rest => cases hread
  | cons byte rest ih =>
    rw [readFrom] at hread
    rcases h.step byte with hnone | ⟨c, hstep, hbytes⟩ | ⟨hnothing, hnext⟩
    · have hmem := List.mem_append_left (readFrom (Utf8.step state byte).2 rest) hnone
      rw [hread] at hmem
      obtain ⟨c, -, hc⟩ := List.mem_map.1 hmem
      cases hc
    · rw [hstep] at hread
      cases chars with
      | nil => cases hread
      | cons d chars =>
        obtain ⟨hsame, hrest⟩ := List.cons.inj hread
        cases hsame
        have hbehind := ih hasRead_start hrest
        rw [List.flatMap_cons, utf8EncodeChar_eq, hbytes, ← hbehind, List.append_assoc]
        rfl
    · rw [hnothing] at hread
      have hbehind := ih hnext hread
      rw [← hbehind, List.append_assoc]
      rfl

/-- A reading without ill-formed places is one of characters. -/
theorem mapM_id_eq_some {items : List (Option Char)} {chars : List Char}
    (h : items.mapM id = some chars) : items = chars.map some := by
  induction items generalizing chars with
  | nil =>
    cases h
    rfl
  | cons item rest ih =>
    rw [List.mapM_cons] at h
    obtain ⟨c, hitem, hrest⟩ := Option.bind_eq_some_iff.1 h
    obtain ⟨more, hmore, hchars⟩ := Option.bind_eq_some_iff.1 hrest
    cases hchars
    rw [ih hmore, show item = some c from hitem]
    rfl

/-- Well-formed bytes are read as the same text with and without regard to ill-formed places, and
they are the bytes of that text. -/
theorem of_decode? {bytes : Bytes} {text : String} (h : decode? bytes = some text) :
    decodeLossy bytes = text ∧ encode text = bytes := by
  obtain ⟨chars, hchars, rfl⟩ := Option.map_eq_some_iff.1 h
  have hread := mapM_id_eq_some hchars
  constructor
  · rw [decodeLossy, hread, List.map_map]
    exact congrArg String.ofList (List.map_id chars)
  · rw [encode, String.toList_ofList]
    exact (hasRead_start.append_eq hread).symm

/-- A text without replacement characters was read without an ill-formed place. -/
theorem read_eq_of_replacement_not_mem {bytes : Bytes}
    (h : replacement ∉ (decodeLossy bytes).toList) :
    read bytes = (decodeLossy bytes).toList.map some := by
  rw [decodeLossy, String.toList_ofList] at h ⊢
  rw [List.map_map]
  conv => lhs; rw [← List.map_id (read bytes)]
  refine List.map_congr_left fun item hitem => ?_
  cases item with
  | some c => rfl
  | none => exact absurd (List.mem_map.2 ⟨none, hitem, rfl⟩) h

/-- **Reading back.**  Bytes whose text has no replacement character are the bytes of their text. -/
theorem encode_decodeLossy {bytes : Bytes} (h : replacement ∉ (decodeLossy bytes).toList) :
    encode (decodeLossy bytes) = bytes :=
  (hasRead_start.append_eq (read_eq_of_replacement_not_mem h)).symm

end Utf8

end WadCatalog
