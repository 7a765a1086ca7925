import WadCatalog.Text.Utf8

/-
  The tokens of JSON.

  Bytes become tokens by a machine that takes one byte at a time.  Most bytes are a token or a part
  of one; a number ends only at the byte behind it, which is then read again from between tokens.

  Strings and numbers stay in the form they were written in.  What a string stands for is worked out
  only where a string is wanted (`Quoted.text?`): there, broken UTF-8 and halves of surrogate pairs
  are errors, while in a string that nobody looks at they are not.
-/

namespace WadCatalog.Json

/-! ## Strings as they are written -/

/-- One part of a string between its quotation marks. -/
inductive Piece where
  /-- A byte that stands for itself. -/
  | plain (byte : UInt8)
  /-- A `\u` and the number in its four digits. -/
  | unit (code : Nat)
  deriving DecidableEq

/-- A string as it is written. -/
abbrev Quoted := List Piece

namespace Quoted

/-- Whether a number is the first half of a surrogate pair. -/
def isHighHalf (code : Nat) : Bool := decide (0xD800 ≤ code ∧ code < 0xDC00)

/-- Whether a number is the second half of a surrogate pair. -/
def isLowHalf (code : Nat) : Bool := decide (0xDC00 ≤ code ∧ code < 0xE000)

/-- The bytes a string stands for, unless it holds half a surrogate pair. -/
def bytes? : Quoted → Option Bytes
  | [] => some []
  | .plain byte :: rest => (bytes? rest).map (byte :: ·)
  | .unit high :: .unit low :: rest =>
    if isHighHalf high then
      if isLowHalf low then
        let code := 0x10000 + (high - 0xD800) * 0x400 + (low - 0xDC00)
        (bytes? rest).map (String.utf8EncodeChar (Char.ofNat code) ++ ·)
      else none
    else if isLowHalf high then none
    else (bytes? (.unit low :: rest)).map (String.utf8EncodeChar (Char.ofNat high) ++ ·)
  | .unit code :: rest =>
    if isHighHalf code ∨ isLowHalf code then none
    else (bytes? rest).map (String.utf8EncodeChar (Char.ofNat code) ++ ·)

/-- The text a string stands for, if it stands for one. -/
def text? (quoted : Quoted) : Option String := (bytes? quoted).bind Utf8.decode?

end Quoted

/-! ## Tokens -/

/-- A token. -/
inductive Token where
  /-- An opening brace. -/
  | openObject
  /-- A closing brace. -/
  | closeObject
  /-- An opening bracket. -/
  | openArray
  /-- A closing bracket. -/
  | closeArray
  /-- A colon. -/
  | colon
  /-- A comma. -/
  | comma
  /-- The word `null`. -/
  | null
  /-- The word `true` or `false`. -/
  | bool (value : Bool)
  /-- A number, in the bytes it was written with. -/
  | number (digits : Bytes)
  /-- A string. -/
  | string (quoted : Quoted)
  deriving DecidableEq

/-- How far a number has come. -/
inductive NumberPart where
  /-- After the sign. -/
  | sign
  /-- After a zero in front, which nothing but a point or an exponent may follow. -/
  | zero
  /-- Among the digits in front of the point. -/
  | whole
  /-- After the point. -/
  | point
  /-- Among the digits behind the point. -/
  | fraction
  /-- After the `e`. -/
  | exponent
  /-- After the sign of the exponent. -/
  | exponentSign
  /-- Among the digits of the exponent. -/
  | exponentDigits
  deriving DecidableEq

namespace NumberPart

/-- Whether a number may end here. -/
def isComplete : NumberPart → Bool
  | zero | whole | fraction | exponentDigits => true
  | sign | point | exponent | exponentSign => false

/-- Whether a byte is a digit. -/
def isDigit (byte : UInt8) : Bool := decide (0x30 ≤ byte ∧ byte ≤ 0x39)

/-- The part after one more byte, if the byte goes on with the number. -/
def step (part : NumberPart) (byte : UInt8) : Option NumberPart :=
  let isE := byte = 0x65 ∨ byte = 0x45
  match part with
  | sign => if byte = 0x30 then some zero else if isDigit byte then some whole else none
  | zero => if byte = 0x2e then some point else if isE then some exponent else none
  | whole =>
    if isDigit byte then some whole
    else if byte = 0x2e then some point
    else if isE then some exponent
    else none
  | point => if isDigit byte then some fraction else none
  | fraction => if isDigit byte then some fraction else if isE then some exponent else none
  | exponent =>
    if isDigit byte then some exponentDigits
    else if byte = 0x2b ∨ byte = 0x2d then some exponentSign
    else none
  | exponentSign | exponentDigits => if isDigit byte then some exponentDigits else none

end NumberPart

/-! ## The machine -/

/-- Where the machine stands. -/
inductive LexState where
  /-- Between tokens. -/
  | between
  /-- Inside a word that goes on with `rest`. -/
  | word (rest : Bytes) (token : Token)
  /-- Inside a number; its bytes so far, latest first. -/
  | number (part : NumberPart) (digits : Bytes)
  /-- Inside a string; its pieces so far, latest first. -/
  | string (pieces : List Piece)
  /-- After a backslash. -/
  | escape (pieces : List Piece)
  /-- After `\u` and some digits: how many are missing, and the number so far. -/
  | unicode (missing : Nat) (code : Nat) (pieces : List Piece)

/-- A byte between tokens: the token it completes and the state after it. -/
def opening (byte : UInt8) : Option (Option Token × LexState) :=
  if byte = 0x20 ∨ byte = 0x09 ∨ byte = 0x0a ∨ byte = 0x0d then some (none, .between)
  else if byte = 0x7b then some (some .openObject, .between)
  else if byte = 0x7d then some (some .closeObject, .between)
  else if byte = 0x5b then some (some .openArray, .between)
  else if byte = 0x5d then some (some .closeArray, .between)
  else if byte = 0x3a then some (some .colon, .between)
  else if byte = 0x2c then some (some .comma, .between)
  else if byte = 0x22 then some (none, .string [])
  else if byte = 0x6e then some (none, .word (Utf8.encode "ull") .null)
  else if byte = 0x74 then some (none, .word (Utf8.encode "rue") (.bool true))
  else if byte = 0x66 then some (none, .word (Utf8.encode "alse") (.bool false))
  else if byte = 0x2d then some (none, .number .sign [byte])
  else (NumberPart.sign.step byte).map fun part => (none, .number part [byte])

/-- What a letter behind a backslash stands for. -/
def escaped? (letter : UInt8) : Option UInt8 :=
  if letter = 0x22 ∨ letter = 0x5c ∨ letter = 0x2f then some letter
  else if letter = 0x62 then some 0x08
  else if letter = 0x66 then some 0x0c
  else if letter = 0x6e then some 0x0a
  else if letter = 0x72 then some 0x0d
  else if letter = 0x74 then some 0x09
  else none

/-- The value of a hexadecimal digit. -/
def hexValue? (byte : UInt8) : Option Nat :=
  if 0x30 ≤ byte ∧ byte ≤ 0x39 then some (byte.toNat - 0x30)
  else if 0x41 ≤ byte ∧ byte ≤ 0x46 then some (byte.toNat - 0x37)
  else if 0x61 ≤ byte ∧ byte ≤ 0x66 then some (byte.toNat - 0x57)
  else none

/-- One byte: the tokens it completes and the state after it, or nothing if it is out of place. -/
def LexState.step (state : LexState) (byte : UInt8) : Option (List Token × LexState) :=
  match state with
  | between => (opening byte).map fun (token, after) => (token.toList, after)
  | word [] token => (opening byte).map fun (next, after) => (token :: next.toList, after)
  | word (expected :: rest) token =>
    if byte = expected then some ([], word rest token) else none
  | number part digits =>
    match part.step byte with
    | some next => some ([], number next (byte :: digits))
    | none =>
      if part.isComplete then
        (opening byte).map fun (next, after) => (.number digits.reverse :: next.toList, after)
      else none
  | string pieces =>
    if byte = 0x22 then some ([.string pieces.reverse], between)
    else if byte = 0x5c then some ([], escape pieces)
    else if byte < 0x20 then none
    else some ([], string (.plain byte :: pieces))
  | escape pieces =>
    if byte = 0x75 then some ([], unicode 3 0 pieces)
    else (escaped? byte).map fun value => ([], string (.plain value :: pieces))
  | unicode missing code pieces =>
    (hexValue? byte).map fun value =>
      let code := code * 16 + value
      match missing with
      | 0 => ([], string (.unit code :: pieces))
      | missing + 1 => ([], unicode missing code pieces)

/-- The end of the bytes: the token it completes, or nothing if a token is cut short. -/
def LexState.finish : LexState → Option (List Token)
  | between => some []
  | word [] token => some [token]
  | number part digits => if part.isComplete then some [.number digits.reverse] else none
  | word (_ :: _) _ | string _ | escape _ | unicode .. => none

/-- The tokens of the bytes from a state on, behind those found before, latest first. -/
def lexFrom (state : LexState) (found : List Token) : Bytes → Option (List Token)
  | [] => state.finish.map fun tokens => (tokens.reverse ++ found).reverse
  | byte :: rest =>
    match state.step byte with
    | none => none
    | some (tokens, after) => lexFrom after (tokens.reverse ++ found) rest

/-- The tokens of the bytes, if they are nothing but tokens and white space. -/
def lex (bytes : Bytes) : Option (List Token) := lexFrom .between [] bytes

example : lex (Utf8.encode "[1.5e3,\"a\\n\"]") =
    some [.openArray, .number (Utf8.encode "1.5e3"), .comma,
      .string [.plain 0x61, .plain 0x0a], .closeArray] := by decide
example : lex (Utf8.encode "1.") = none := by decide
example : lex (Utf8.encode "nul") = none := by decide
example : Quoted.text? [.unit 0xD83D, .unit 0xDE00] = some "😀" := by decide
example : Quoted.text? [.unit 0xD83D] = none := by decide

end WadCatalog.Json
