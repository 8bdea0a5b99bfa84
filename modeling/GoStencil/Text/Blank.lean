import GoStencil.Text.Ranges

/-!
# White space

The characters with the property `White_Space`, and texts without their blank ends.
-/

namespace GoStencil.Text

/-- The code points with the property `White_Space`. -/
def blankRanges : Ranges :=
  [(0x09, 0x0D), (0x20, 0x20), (0x85, 0x85), (0xA0, 0xA0), (0x1680, 0x1680), (0x2000, 0x200A),
   (0x2028, 0x2029), (0x202F, 0x202F), (0x205F, 0x205F), (0x3000, 0x3000)]

/-- Whether the character is white space. -/
def isBlank (c : Char) : Bool :=
  blankRanges.covers c.toNat

/-- The characters from the first one on that is not white space. -/
def dropBlank (cs : List Char) : List Char :=
  cs.dropWhile isBlank

/-- The characters up to the last one that is not white space. -/
def dropBlankEnd : List Char → List Char
  | [] => []
  | c :: cs =>
    match dropBlankEnd cs with
    | [] => if isBlank c then [] else [c]
    | kept => c :: kept

/-- The text without white space at its start. -/
def trimStart (s : String) : String :=
  String.ofList (dropBlank s.toList)

/-- The text without white space at its end. -/
def trimEnd (s : String) : String :=
  String.ofList (dropBlankEnd s.toList)

/-- The text without white space at either end. -/
def trim (s : String) : String :=
  String.ofList (dropBlankEnd (dropBlank s.toList))

end GoStencil.Text
