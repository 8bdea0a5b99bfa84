/-!
# Lines

A line ends at `\n` or `\r\n`; a `\r` elsewhere is one of its characters. Text after the last line
end is a line unless it is empty.
-/

namespace GoStencil.Text

/-- The characters of a line that a `\n` ends, of which `line` holds those before it, last
    character first. -/
def endedLine : List Char → List Char
  | '\r' :: line => line.reverse
  | line => line.reverse

/-- The lines of a text of which `line` holds, last character first, what the current line has
    so far. -/
def linesFrom : List Char → List Char → List (List Char)
  | line, [] => if line.isEmpty then [] else [line.reverse]
  | line, '\n' :: rest => endedLine line :: linesFrom [] rest
  | line, c :: rest => linesFrom (c :: line) rest

/-- The lines of a text. -/
def lines (s : String) : List String :=
  (linesFrom [] s.toList).map String.ofList

end GoStencil.Text
