import WadCatalog.Json.Lexer

/-
  Values of JSON.

  Tokens become a value by a machine with a stack.  Each frame of the stack is an array or an object
  that is still open, with what it holds so far.  A value that is complete goes into the innermost
  frame, or is the result if no frame is open; so values may be nested to any depth.
-/

namespace WadCatalog.Json

/-- A value of JSON.  Strings and numbers are as they were written. -/
inductive Value where
  /-- Nothing. -/
  | null
  /-- A truth value. -/
  | bool (value : Bool)
  /-- A number. -/
  | number (digits : Bytes)
  /-- A string. -/
  | string (quoted : Quoted)
  /-- An array with its items in order. -/
  | array (items : List Value)
  /-- An object with its members in order, repeated keys included. -/
  | object (members : List (Quoted × Value))

/-- An array or object that is still open. -/
inductive Frame where
  /-- An array; its items so far, latest first. -/
  | array (items : List Value)
  /-- An object that waits for the value of `key`; its members so far, latest first. -/
  | object (members : List (Quoted × Value)) (key : Quoted)

/-- What the machine waits for. -/
inductive ParseState where
  /-- A value. -/
  | value (stack : List Frame)
  /-- The first item of an array, or its end. -/
  | firstItem (stack : List Frame)
  /-- The first key of an object, or its end. -/
  | firstKey (stack : List Frame)
  /-- A further key of an object. -/
  | key (members : List (Quoted × Value)) (stack : List Frame)
  /-- The colon behind a key. -/
  | colon (members : List (Quoted × Value)) (key : Quoted) (stack : List Frame)
  /-- A comma or the end of an array. -/
  | afterItem (items : List Value) (stack : List Frame)
  /-- A comma or the end of an object. -/
  | afterMember (members : List (Quoted × Value)) (stack : List Frame)
  /-- Nothing more. -/
  | done (value : Value)

namespace ParseState

/-- The state after a complete value. -/
def complete (result : Value) : List Frame → ParseState
  | [] => .done result
  | .array items :: stack => .afterItem (result :: items) stack
  | .object members name :: stack => .afterMember ((name, result) :: members) stack

/-- A token where a value must start. -/
def startValue (stack : List Frame) : Token → Option ParseState
  | .null => some (complete .null stack)
  | .bool truth => some (complete (.bool truth) stack)
  | .number digits => some (complete (.number digits) stack)
  | .string quoted => some (complete (.string quoted) stack)
  | .openArray => some (.firstItem stack)
  | .openObject => some (.firstKey stack)
  | .closeArray | .closeObject | .colon | .comma => none

/-- One token: the state after it, or nothing if the token is out of place. -/
def step : ParseState → Token → Option ParseState
  | .value stack, token => startValue stack token
  | .firstItem stack, .closeArray => some (complete (.array []) stack)
  | .firstItem stack, token => startValue (.array [] :: stack) token
  | .firstKey stack, .closeObject => some (complete (.object []) stack)
  | .firstKey stack, .string name => some (.colon [] name stack)
  | .key members stack, .string name => some (.colon members name stack)
  | .colon members name stack, .colon => some (.value (.object members name :: stack))
  | .afterItem items stack, .comma => some (.value (.array items :: stack))
  | .afterItem items stack, .closeArray => some (complete (.array items.reverse) stack)
  | .afterMember members stack, .comma => some (.key members stack)
  | .afterMember members stack, .closeObject => some (complete (.object members.reverse) stack)
  | _, _ => none

/-- The value of the tokens from a state on. -/
def run : ParseState → List Token → Option Value
  | .done result, [] => some result
  | _, [] => none
  | state, token :: rest =>
    match step state token with
    | none => none
    | some after => run after rest

end ParseState

/-- The value that the bytes write, if they write exactly one. -/
def parse (bytes : Bytes) : Option Value := (lex bytes).bind (ParseState.run (.value []))

example : (parse (Utf8.encode "[1,]")).isNone = true := by decide
example : (parse (Utf8.encode "[[],[]]")).isSome = true := by decide

end WadCatalog.Json
