/-!
# Finding texts in texts

Tests for a text at the end of another or anywhere inside it, and the pieces between the
occurrences of a text.
-/

namespace GoStencil.Text

/-- Whether the text ends with the other. -/
def endsWith (s ending : String) : Bool :=
  ending.toList.isSuffixOf s.toList

/-- Whether the first characters occur, one after the other, among the second. -/
def occursIn (needle : List Char) : List Char → Bool
  | [] => needle.isEmpty
  | c :: cs => needle.isPrefixOf (c :: cs) || occursIn needle cs

/-- Whether the text contains the other. -/
def contains (s needle : String) : Bool :=
  occursIn needle.toList s.toList

/-- The pieces between the occurrences of a text, found from left to right without overlap. Of
    the current occurrence `skip` characters are left, and `piece` holds the current piece, last
    character first. -/
def splitFrom (needle : List Char) : Nat → List Char → List Char → List (List Char)
  | _, piece, [] => [piece.reverse]
  | skip + 1, piece, _ :: cs => splitFrom needle skip piece cs
  | 0, piece, c :: cs =>
    if needle.isPrefixOf (c :: cs) then
      piece.reverse :: splitFrom needle (needle.length - 1) [] cs
    else
      splitFrom needle 0 (c :: piece) cs

/-- The pieces between the occurrences of a text that is not empty. -/
def splitOn (s needle : String) : List String :=
  (splitFrom needle.toList 0 [] s.toList).map String.ofList

end GoStencil.Text
