import WadCatalog.Text.Printable

/-
  Text between quotation marks, for a reader.

  Plain characters stand for themselves.  The quotation mark, the backslash and the four control
  characters with a letter of their own are written with a backslash; every other character that
  is not plain is written as its code point in hexadecimal, `\u{1b}`.
-/

namespace WadCatalog.Text

/-- The form of one character inside quotation marks. -/
def quotedChar (c : Char) : List Char :=
  match c with
  | '\x00' => ['\\', '0']
  | '\t' => ['\\', 't']
  | '\r' => ['\\', 'r']
  | '\n' => ['\\', 'n']
  | '\\' => ['\\', '\\']
  | '"' => ['\\', '"']
  | c =>
    if isPlain c then [c]
    else ['\\', 'u', '\x7b'] ++ Nat.toDigits 16 c.toNat ++ ['\x7d']

/-- The text between quotation marks. -/
def quoted (text : String) : String :=
  String.ofList ('"' :: text.toList.flatMap quotedChar ++ ['"'])

example : quoted "a'b" = "\"a'b\"" := by decide
example : quoted "a\"\n" = "\"a\\\"\\n\"" := by decide
example : quoted "\x1b" = "\"\\u\x7b1b\x7d\"" := by decide

end WadCatalog.Text
