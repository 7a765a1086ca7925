/-
  Columns of a fixed width.

  A text narrower than its column is filled up on the far side; a wider one is not cut.  Width is
  counted in characters.
-/

namespace WadCatalog.Text

/-- The text with `fill` in front, up to `width` characters. -/
def alignRight (width : Nat) (text : String) (fill : Char) : String :=
  String.ofList (text.toList.leftpad width fill)

/-- The text with spaces after it, up to `width` characters. -/
def alignLeft (width : Nat) (text : String) : String :=
  String.ofList (text.toList.rightpad width ' ')

example : alignRight 5 "42" '0' = "00042" := by decide
example : alignRight 2 "123" ' ' = "123" := by decide
example : alignLeft 4 "é" = "é   " := by decide

end WadCatalog.Text
