import WadCatalog.Bytes.LittleEndian

/-
  The MD5 digest of a byte string.

  The message is filled up to a whole number of blocks of sixty-four bytes, and each block is mixed
  into a state of four 32-bit words by sixty-four steps.  The digest is the state after the last
  block, sixteen bytes in all.
-/

namespace WadCatalog.Md5

/-- The four words that the blocks are mixed into. -/
structure State where
  /-- The first word. -/
  a : UInt32
  /-- The second word. -/
  b : UInt32
  /-- The third word. -/
  c : UInt32
  /-- The fourth word. -/
  d : UInt32
  deriving DecidableEq

/-- The state before the first block. -/
def State.initial : State := ⟨0x67452301, 0xefcdab89, 0x98badcfe, 0x10325476⟩

/-- The sixteen bytes of a state. -/
def State.bytes (state : State) : Bytes :=
  [state.a, state.b, state.c, state.d].flatMap fun word => LittleEndian.ofNat 4 word.toNat

/-- The constant of each step: the first thirty-two bits behind the point of the sine of its
number, counted from one. -/
def constants : Array UInt32 :=
  #[
    0xd76aa478, 0xe8c7b756, 0x242070db, 0xc1bdceee, 0xf57c0faf, 0x4787c62a,
    0xa8304613, 0xfd469501, 0x698098d8, 0x8b44f7af, 0xffff5bb1, 0x895cd7be,
    0x6b901122, 0xfd987193, 0xa679438e, 0x49b40821, 0xf61e2562, 0xc040b340,
    0x265e5a51, 0xe9b6c7aa, 0xd62f105d, 0x02441453, 0xd8a1e681, 0xe7d3fbc8,
    0x21e1cde6, 0xc33707d6, 0xf4d50d87, 0x455a14ed, 0xa9e3e905, 0xfcefa3f8,
    0x676f02d9, 0x8d2a4c8a, 0xfffa3942, 0x8771f681, 0x6d9d6122, 0xfde5380c,
    0xa4beea44, 0x4bdecfa9, 0xf6bb4b60, 0xbebfbc70, 0x289b7ec6, 0xeaa127fa,
    0xd4ef3085, 0x04881d05, 0xd9d4d039, 0xe6db99e5, 0x1fa27cf8, 0xc4ac5665,
    0xf4292244, 0x432aff97, 0xab9423a7, 0xfc93a039, 0x655b59c3, 0x8f0ccc92,
    0xffeff47d, 0x85845dd1, 0x6fa87e4f, 0xfe2ce6e0, 0xa3014314, 0x4e0811a1,
    0xf7537e82, 0xbd3af235, 0x2ad7d2bb, 0xeb86d391
  ]

/-- By how many bits each step rotates. -/
def rotation (step : Nat) : UInt32 :=
  match step / 16, step % 4 with
  | 0, 0 => 7 | 0, 1 => 12 | 0, 2 => 17 | 0, _ => 22
  | 1, 0 => 5 | 1, 1 => 9 | 1, 2 => 14 | 1, _ => 20
  | 2, 0 => 4 | 2, 1 => 11 | 2, 2 => 16 | 2, _ => 23
  | _, 0 => 6 | _, 1 => 10 | _, 2 => 15 | _, _ => 21

/-- The word turned left. -/
def rotateLeft (word count : UInt32) : UInt32 := (word <<< count) ||| (word >>> (32 - count))

/-- One of the sixty-four steps, over the sixteen words of a block. -/
def mix (words : Array UInt32) (state : State) (step : Nat) : State :=
  let ⟨a, b, c, d⟩ := state
  let (blend, index) := match step / 16 with
    | 0 => ((b &&& c) ||| (~~~b &&& d), step)
    | 1 => ((d &&& b) ||| (~~~d &&& c), 5 * step + 1)
    | 2 => (b ^^^ c ^^^ d, 3 * step + 5)
    | _ => (c ^^^ (b ||| ~~~d), 7 * step)
  let sum := a + blend + constants.getD step 0 + words.getD (index % 16) 0
  ⟨d, b + rotateLeft sum (rotation step), b, c⟩

/-- The sixteen words of a block. -/
def blockWords (block : Bytes) : Array UInt32 :=
  ((List.range 16).map fun index =>
    UInt32.ofNat (LittleEndian.toNat (block.slice (4 * index) 4))).toArray

/-- The state after one more block. -/
def absorb (state : State) (block : Bytes) : State :=
  let words := blockWords block
  let mixed := (List.range 64).foldl (mix words) state
  ⟨state.a + mixed.a, state.b + mixed.b, state.c + mixed.c, state.d + mixed.d⟩

/-- The state after the first `count` blocks of the bytes. -/
def absorbBlocks : (count : Nat) → State → Bytes → State
  | 0, state, _ => state
  | count + 1, state, bytes => absorbBlocks count (absorb state (bytes.take 64)) (bytes.drop 64)

/-- How many zero bytes fill a message up, so that with the marking byte and the length it ends at
the end of a block. -/
def fillLength (length : Nat) : Nat := (119 - length % 64) % 64

/-- The message filled up to whole blocks: a marking byte, zero bytes, and the length in bits. -/
def fill (message : Bytes) : Bytes :=
  message ++ 0x80 :: (List.replicate (fillLength message.length) 0 ++
    LittleEndian.ofNat 8 (8 * message.length))

/-- The digest of a message. -/
def digest (message : Bytes) : Bytes :=
  let filled := fill message
  (absorbBlocks (filled.length / 64) .initial filled).bytes

end WadCatalog.Md5
