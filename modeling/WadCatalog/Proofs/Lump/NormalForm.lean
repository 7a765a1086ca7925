import Mathlib.Data.List.Forall2
import WadCatalog.Lump.Name

/-
  The canonical form of a name, as a normal form.

  Archives spell one name in many ways, and all of them are to be found as one.  So two things are to be
  shown of the canonical form: it leaves only one spelling of a name, and it makes no two names one.
  Which raw names spell one name can be said without folding or cutting anything:

  1. **Case** (`Ascii.upperByte_eq_upperByte_iff`).  Bytes are folded to one exactly if they are equal
     or one letter in both cases.
  2. **What counts** (`LumpName.isCut_iff`).  That is the longest front of a raw name that has at most
     eight bytes and no zero byte.
  3. **Order** (`LumpName.compare_eq_compare_trimmed`).  Names are ordered by the eight bytes that an
     archive holds.  Without padding they come in the same order, as a zero byte is smaller than all
     bytes of a name: where the shorter one ends, it is already the smaller one.
-/

namespace WadCatalog

/-! ## Case -/

namespace Ascii

/-- That a byte is the lower case of an upper-case ASCII letter. -/
def IsLowerOf (lower capital : UInt8) : Prop :=
  0x41 ≤ capital.toNat ∧ capital.toNat ≤ 0x5a ∧ lower.toNat = capital.toNat + 0x20

/-- That two bytes are equal or one ASCII letter in both cases. -/
def SameButCase (one other : UInt8) : Prop :=
  one = other ∨ IsLowerOf one other ∨ IsLowerOf other one

/-- **Case.**  Two bytes have the same upper case exactly if they differ at most in case. -/
theorem upperByte_eq_upperByte_iff {one other : UInt8} :
    upperByte one = upperByte other ↔ SameButCase one other := by
  rw [SameButCase, IsLowerOf, IsLowerOf, ← UInt8.toNat_inj, ← UInt8.toNat_inj, toNat_upperByte,
    toNat_upperByte]
  split <;> split <;> omega

/-- Bytes have the same upper case exactly if they differ at most in case, one by one. -/
theorem map_upperByte_eq_iff {bytes others : Bytes} :
    bytes.map upperByte = others.map upperByte ↔ List.Forall₂ SameButCase bytes others := by
  rw [← List.forall₂_eq_eq_eq, List.forall₂_map_left_iff, List.forall₂_map_right_iff]
  simp only [upperByte_eq_upperByte_iff]

end Ascii

/-! ## What counts of a raw name -/

namespace LumpName

/-- That a raw name, cut at eight bytes and at its first zero byte, is `front`: this is its longest front
that has at most eight bytes and no zero byte. -/
structure IsCut (raw front : Bytes) : Prop where
  isPrefix : front <+: raw
  length_le : front.length ≤ 8
  zero_not_mem : 0 ∉ front
  longest : ∀ longer, longer <+: raw → longer.length ≤ 8 → 0 ∉ longer → longer <+: front

theorem isCut_cut (raw : Bytes) : IsCut raw (cut raw) where
  isPrefix := (List.takeWhile_prefix _).trans (List.take_prefix _ _)
  length_le := length_cut_le raw
  zero_not_mem hmem := ne_zero_of_mem_cut hmem rfl
  longest longer hstart hlength hzero := by
    obtain ⟨rest, hrest⟩ := List.prefix_take_iff.2 ⟨hstart, hlength⟩
    have hne : ∀ byte ∈ longer, (byte != 0) = true := by
      intro byte hmem
      simpa using fun hbyte : byte = 0 => hzero (hbyte ▸ hmem)
    rw [cut, width, ← hrest, List.takeWhile_append_of_pos hne]
    exact List.prefix_append _ _

/-- **What counts.**  There is exactly one such front. -/
theorem isCut_iff {raw front : Bytes} : IsCut raw front ↔ front = cut raw := by
  constructor
  · intro h
    have hcut := isCut_cut raw
    have hinside := hcut.longest front h.isPrefix h.length_le h.zero_not_mem
    have haround := h.longest (cut raw) hcut.isPrefix hcut.length_le hcut.zero_not_mem
    exact hinside.eq_of_length_le haround.length_le
  · rintro rfl
    exact isCut_cut raw

/-- Raw names have one canonical form exactly if what counts of them differs at most in case. -/
theorem ofRaw_eq_ofRaw_iff {raw other : Bytes} :
    ofRaw raw = ofRaw other ↔ ∃ front otherFront,
      IsCut raw front ∧ IsCut other otherFront ∧ List.Forall₂ Ascii.SameButCase front otherFront := by
  calc ofRaw raw = ofRaw other
    _ ↔ (cut raw).map Ascii.upperByte = (cut other).map Ascii.upperByte := LumpName.ext_iff
    _ ↔ List.Forall₂ Ascii.SameButCase (cut raw) (cut other) := Ascii.map_upperByte_eq_iff
    _ ↔ _ := by simp only [isCut_iff, exists_and_left, exists_eq_left]

end LumpName

/-! ## Order -/

namespace Bytes

/-- A zero byte comes before any other one, whatever is behind the two. -/
theorem compare_replicate_succ {byte : UInt8} (h : byte ≠ 0) (count : Nat) (rest : Bytes) :
    compare (List.replicate (count + 1) 0) (byte :: rest) = .lt := by
  have hlt : compare 0 byte = .lt := Std.compare_eq_lt.2 (UInt8.pos_iff_ne_zero.2 h)
  rw [List.replicate_succ, List.compare_cons_cons, hlt, Ordering.lt_then]

/-- Zero bytes that fill up to one length do not change the order of bytes that are not zero. -/
theorem compare_append_replicate {left right : Bytes} (hleft : 0 ∉ left) (hright : 0 ∉ right)
    {m n : Nat} (h : left.length + m = right.length + n) :
    compare (left ++ List.replicate m 0) (right ++ List.replicate n 0) = compare left right := by
  induction left generalizing right with
  | nil =>
    cases right with
    | nil =>
      obtain rfl : m = n := by simpa using h
      exact Std.ReflCmp.compare_self
    | cons other more =>
      -- the left side has ended, so its padding is compared with the next byte of the right side
      rw [List.length_nil, List.length_cons] at h
      obtain ⟨count, rfl⟩ : ∃ count, m = count + 1 := ⟨more.length + n, by omega⟩
      rw [List.compare_nil_cons]
      exact compare_replicate_succ (List.ne_of_not_mem_cons hright).symm count _
  | cons byte rest ih =>
    cases right with
    | nil =>
      rw [List.length_cons, List.length_nil] at h
      obtain ⟨count, rfl⟩ : ∃ count, n = count + 1 := ⟨rest.length + m, by omega⟩
      rw [List.compare_cons_nil]
      exact Std.OrientedCmp.gt_iff_lt.2
        (compare_replicate_succ (List.ne_of_not_mem_cons hleft).symm count _)
    | cons other more =>
      rw [List.length_cons, List.length_cons] at h
      have hlength : rest.length + m = more.length + n := by omega
      rw [List.cons_append, List.cons_append, List.compare_cons_cons, List.compare_cons_cons,
        ih (List.not_mem_of_not_mem_cons hleft) (List.not_mem_of_not_mem_cons hright) hlength]

end Bytes

namespace LumpName

variable {one other : LumpName}

theorem zero_not_mem_trimmed (name : LumpName) : 0 ∉ name.trimmed :=
  fun hmem => (name.canonical 0 hmem).1 rfl

/-- **Order.**  Names are ordered as their bytes are without padding. -/
theorem compare_eq_compare_trimmed (one other : LumpName) :
    compare one other = compare one.trimmed other.trimmed := by
  have hone : one.trimmed.length ≤ width := one.length_le
  have hother : other.trimmed.length ≤ width := other.length_le
  exact Bytes.compare_append_replicate one.zero_not_mem_trimmed other.zero_not_mem_trimmed (by omega)

theorem compare_eq_lt_iff : compare one other = .lt ↔ one.trimmed < other.trimmed := by
  rw [compare_eq_compare_trimmed, Bytes.compare_eq_lt_iff]

theorem compare_eq_gt_iff : compare one other = .gt ↔ other.trimmed < one.trimmed := by
  rw [compare_eq_compare_trimmed, Std.OrientedCmp.gt_iff_lt, Bytes.compare_eq_lt_iff]

theorem compare_eq_eq_iff : compare one other = .eq ↔ one.trimmed = other.trimmed := by
  rw [compare_eq_compare_trimmed, Std.LawfulEqOrd.compare_eq_iff_eq]

/-- The eight bytes of names, as lists, are in the order of the names. -/
theorem padded_lt_padded_iff : one.padded < other.padded ↔ one.trimmed < other.trimmed := by
  rw [← Bytes.compare_eq_lt_iff]
  exact compare_eq_lt_iff

/-- Names with the same eight bytes are one. -/
theorem padded_inj : one.padded = other.padded ↔ one = other := by
  constructor
  · intro h
    rw [← ofRaw_padded one, h, ofRaw_padded]
  · rintro rfl
    rfl

/-! ## The normal form -/

/-- The eight bytes of a name are its bytes and then only zero bytes. -/
theorem exists_padding (name : LumpName) :
    ∃ padding, name.padded = name.trimmed ++ List.replicate padding 0 ∧
      name.trimmed.length + padding = 8 :=
  ⟨_, rfl, Nat.add_sub_cancel' name.length_le⟩

/-- **The canonical form is a normal form.**  The eight bytes of a canonical name are at most eight
bytes, none of them zero or a lower-case letter, and then only zero bytes.  With these zero bytes or
without them, they have the canonical name they are from.  Two raw names have one canonical form exactly
if, cut at eight bytes and at the first zero byte, they are equal up to the case of ASCII letters.
Canonical names are equal exactly if their eight bytes are, and exactly if their bytes without padding
are; and the order of names, by their eight bytes, is the lexicographic order of the bytes without
padding. -/
theorem ofRaw_normal_form (raw other : Bytes) :
    let name := ofRaw raw
    let otherName := ofRaw other
    (∃ padding, name.padded = name.trimmed ++ List.replicate padding 0 ∧
      name.trimmed.length + padding = 8) ∧
    (∀ byte ∈ name.trimmed, byte ≠ 0 ∧ ¬ Ascii.IsLower byte) ∧
    ofRaw name.padded = name ∧
    ofRaw name.trimmed = name ∧
    (name = otherName ↔ ∃ front otherFront,
      IsCut raw front ∧ IsCut other otherFront ∧ List.Forall₂ Ascii.SameButCase front otherFront) ∧
    (name.padded = otherName.padded ↔ name = otherName) ∧
    (name.padded = otherName.padded ↔ name.trimmed = otherName.trimmed) ∧
    (name.padded < otherName.padded ↔ name.trimmed < otherName.trimmed) ∧
    (compare name otherName = .lt ↔ name.trimmed < otherName.trimmed) ∧
    (compare name otherName = .eq ↔ name.trimmed = otherName.trimmed) ∧
    (compare name otherName = .gt ↔ otherName.trimmed < name.trimmed) := by
  intro name otherName
  have hbytes : ∀ byte ∈ name.trimmed, byte ≠ 0 ∧ ¬ Ascii.IsLower byte :=
    fun byte hmem => ⟨(name.canonical byte hmem).1, not_isLower_of_mem hmem⟩
  have htrimmed : name.padded = otherName.padded ↔ name.trimmed = otherName.trimmed := by
    rw [padded_inj, LumpName.ext_iff]
  exact ⟨name.exists_padding, hbytes, ofRaw_padded name, ofRaw_trimmed name, ofRaw_eq_ofRaw_iff,
    padded_inj, htrimmed, padded_lt_padded_iff, compare_eq_lt_iff, compare_eq_eq_iff,
    compare_eq_gt_iff⟩

example : ofRaw [0x74, 0x72, 0x6f, 0x4f, 0x00, 0x6a] = ofText "TROO" := by decide
example : compare (ofText "map1") (ofText "MAP10") = .lt := by decide

end LumpName

end WadCatalog
