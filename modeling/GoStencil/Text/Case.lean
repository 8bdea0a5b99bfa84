import GoStencil.Text.CaseRanges

/-!
# Case mappings

Full upper and lower case. A character may become several (`ß` is `SS` in upper case), and a
capital sigma that ends a word becomes `ς` in lower case.
-/

namespace GoStencil.Text

/-- The image of a code point under the first run that holds it. -/
def applyRuns (runs : List CaseRun) (code : Nat) : Option Nat :=
  runs.findSome? (·.imageOf? code)

/-- The mapping given by its expansions and runs; a code point in neither stays what it is. -/
def mapCase (expansions : List (Nat × List Nat)) (runs : List CaseRun) (c : Char) : List Char :=
  match expansions.lookup c.toNat with
  | some codes => codes.map Char.ofNat
  | none =>
    match applyRuns runs c.toNat with
    | some code => [Char.ofNat code]
    | none => [c]

/-- The full upper case of a character. -/
def upperChar (c : Char) : List Char :=
  if c.val < 0x80 then [c.toUpper] else mapCase upperExpansions upperRuns c

/-- The full lower case of a character outside any word. -/
def lowerChar (c : Char) : List Char :=
  if c.val < 0x80 then [c.toLower] else mapCase lowerExpansions lowerRuns c

/-- Whether the character has the property `Cased`. -/
def isCased (c : Char) : Bool :=
  if c.val < 0x80 then c.isAlpha else casedRanges.covers c.toNat

/-- Whether the character has the property `Case_Ignorable`. -/
def isCaseIgnorable (c : Char) : Bool :=
  if c.val < 0x80 then
    c == '\'' || c == '.' || c == ':' || c == '^' || c == '\x60'
  else
    caseIgnorableRanges.covers c.toNat

/-- Whether the first character that case does not ignore is cased. -/
def touchesCased (cs : List Char) : Bool :=
  match cs.dropWhile isCaseIgnorable with
  | [] => false
  | c :: _ => isCased c

/-- Lower case of the characters after `before`, which is given last character first. A capital
    sigma after a cased character and before none is the final form. -/
def lowerAfter : List Char → List Char → List Char
  | _, [] => []
  | before, c :: rest =>
    let image :=
      if c == 'Σ' then
        if touchesCased before && !touchesCased rest then ['ς'] else ['σ']
      else
        lowerChar c
    image ++ lowerAfter (c :: before) rest

/-- The full lower case of a text. -/
def lowercase (s : String) : String :=
  String.ofList (lowerAfter [] s.toList)

/-- The text with its first character in upper case. -/
def capitalize (s : String) : String :=
  match s.toList with
  | [] => ""
  | c :: rest => String.ofList (upperChar c ++ rest)

end GoStencil.Text
