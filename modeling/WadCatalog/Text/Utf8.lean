import WadCatalog.Bytes

/-
  UTF-8, read byte by byte.

  A byte string is read as a sequence of items: a character, or a place where the bytes are
  ill-formed.  Of ill-formed bytes, each **maximal subpart** is one item: the longest run that some
  well-formed character starts with, or else a single byte.  Three readings follow from the items:

    * `read`        the items themselves;
    * `decodeLossy` one replacement character for each ill-formed place;
    * `decode?`     the characters, if there is no ill-formed place.

  The reader is a machine with one state between characters and one inside a character.  Inside, it
  remembers how many bytes are still owed after the next one and between which bounds the next one
  must lie.  The bounds are narrower than `80..BF` after `E0`, `ED`, `F0` and `F4`; that is what
  keeps out overlong forms, surrogates and numbers above `10FFFF`.  A byte outside the bounds ends
  the subpart and is then read again from between characters.
-/

namespace WadCatalog.Utf8

/-! ## The machine -/

/-- Where the reader stands before its next byte. -/
inductive State where
  /-- Between characters. -/
  | start
  /-- Inside a character whose bits so far are `code`.  The next byte must lie in `low..high`, and
  `owed` more bytes of `80..BF` follow it. -/
  | inside (owed : Nat) (low high : UInt8) (code : Nat)
  deriving DecidableEq, Repr

/-- What the first byte of a character gives: the items it completes and the state after it. -/
def opening (byte : UInt8) : List (Option Char) × State :=
  if byte < 0x80 then ([some (Char.ofNat byte.toNat)], .start)
  else if byte < 0xC2 then ([none], .start)
  else if byte < 0xE0 then ([], .inside 0 0x80 0xBF (byte.toNat - 0xC0))
  else if byte = 0xE0 then ([], .inside 1 0xA0 0xBF 0)
  else if byte = 0xED then ([], .inside 1 0x80 0x9F 0xD)
  else if byte < 0xF0 then ([], .inside 1 0x80 0xBF (byte.toNat - 0xE0))
  else if byte = 0xF0 then ([], .inside 2 0x90 0xBF 0)
  else if byte < 0xF4 then ([], .inside 2 0x80 0xBF (byte.toNat - 0xF0))
  else if byte = 0xF4 then ([], .inside 2 0x80 0x8F 4)
  else ([none], .start)

/-- One byte: the items it completes and the state after it. -/
def step : State → UInt8 → List (Option Char) × State
  | .start, byte => opening byte
  | .inside owed low high code, byte =>
    if low ≤ byte ∧ byte ≤ high then
      let code := code * 64 + byte.toNat % 64
      match owed with
      | 0 => ([some (Char.ofNat code)], .start)
      | owed + 1 => ([], .inside owed 0x80 0xBF code)
    else
      let (items, state) := opening byte
      (none :: items, state)

/-- What the end of the bytes gives: a character cut short is one ill-formed place. -/
def closing : State → List (Option Char)
  | .start => []
  | .inside .. => [none]

/-- The items of the bytes, from a given state on. -/
def readFrom : State → Bytes → List (Option Char)
  | state, [] => closing state
  | state, byte :: rest => (step state byte).1 ++ readFrom (step state byte).2 rest

/-- The items of the bytes: characters, and `none` for each ill-formed place. -/
def read (bytes : Bytes) : List (Option Char) := readFrom .start bytes

/-! ## The three uses -/

/-- The character that stands for an ill-formed place. -/
def replacement : Char := '\uFFFD'

/-- The text of the bytes, with one replacement character for each ill-formed place. -/
def decodeLossy (bytes : Bytes) : String := String.ofList ((read bytes).map (·.getD replacement))

/-- The text of the bytes, if they are well-formed. -/
def decode? (bytes : Bytes) : Option String := ((read bytes).mapM id).map String.ofList

/-- The bytes of a text. -/
def encode (text : String) : Bytes := text.toList.flatMap String.utf8EncodeChar

example : decodeLossy [0x41, 0xC3, 0xA9, 0xFF, 0x42] = "Aé\uFFFDB" := by decide
example : decodeLossy [0xE2, 0x82, 0x41] = "\uFFFDA" := by decide
example : decodeLossy [0xED, 0xA0, 0x80] = "\uFFFD\uFFFD\uFFFD" := by decide
example : decode? [0xF0, 0x9F, 0x98, 0x80] = some "😀" := by decide
example : decode? [0xC0, 0x80] = none := by decide
example : encode "é" = [0xC3, 0xA9] := by decide

end WadCatalog.Utf8
