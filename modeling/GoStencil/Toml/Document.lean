import GoStencil.Toml.Scalar
import GoStencil.Toml.Table

/-!
# Reading a TOML document

The statements of a document, line by line: headers, and keys with their values. A document is
read with single characters for its line ends; a `\r` anywhere else is an error.

* `readString`, `readKey`, `readValue`: the parts of a statement, each with what follows it.
* `readDocument`: the root table of a document, when it is one.

Readers of nested forms take a bound on the depth and number of their parts, for which the length
of the text suffices.
-/

namespace GoStencil.Toml

/-- What a reader finds, and what follows it. -/
abbrev Reader (α : Type) := List Char → Option (α × List Char)

/-! ## 1. Blanks, line ends and comments -/

/-- The characters after spaces and tabs. -/
def skipBlanks (cs : List Char) : List Char :=
  cs.dropWhile fun c => c == ' ' || c == '\t'

/-- The text with every `\r\n` as `\n`. -/
def unifyLineEnds : List Char → List Char
  | '\r' :: '\n' :: rest => '\n' :: unifyLineEnds rest
  | c :: rest => c :: unifyLineEnds rest
  | [] => []

/-- Whether a character may stand in a comment or string: no control character but the tab. -/
def isPrintable (c : Char) : Bool :=
  c == '\t' || (' ' ≤ c && c != '\x7f')

/-- The characters after a comment, or where none begins. -/
def skipComment : List Char → List Char
  | '#' :: rest => rest.dropWhile isPrintable
  | cs => cs

/-- The characters after any blanks, line ends and comments. -/
def skipSpace : Nat → List Char → List Char
  | 0, cs => cs
  | steps + 1, cs =>
    match skipComment (skipBlanks cs) with
    | '\n' :: rest => skipSpace steps rest
    | rest => rest

/-- What follows the end of a statement: blanks, perhaps a comment, and a line end or the end of
    the text. -/
def afterStatement? (cs : List Char) : Option (List Char) :=
  match skipComment (skipBlanks cs) with
  | [] => some []
  | '\n' :: rest => some rest
  | _ => none

/-! ## 2. Strings -/

/-- The character of a code point that is one. -/
def charOf? (code : Nat) : Option Char :=
  if code.isValidChar then some (Char.ofNat code) else none

/-- The character that stands for a letter after a backslash. -/
def escaped? : Char → Option Char
  | 'b' => some '\x08'
  | 't' => some '\t'
  | 'n' => some '\n'
  | 'f' => some '\x0c'
  | 'r' => some '\r'
  | '"' => some '"'
  | '\\' => some '\\'
  | _ => none

/-- The character written after a backslash. -/
def readEscape : Reader Char
  | 'u' :: rest =>
    let digits := rest.take 4
    if digits.length = 4 && digits.all isHexDigit then
      (charOf? (hexNumber digits)).map (·, rest.drop 4)
    else none
  | 'U' :: rest =>
    let digits := rest.take 8
    if digits.length = 8 && digits.all isHexDigit then
      (charOf? (hexNumber digits)).map (·, rest.drop 8)
    else none
  | c :: rest => (escaped? c).map (·, rest)
  | [] => none

/-- The rest of a string in double quotes, of which `text` holds, last character first, what was
    read. -/
def readBasic : Nat → List Char → Reader String
  | 0, _, _ => none
  | steps + 1, text, cs =>
    match cs with
    | '"' :: rest => some (String.ofList text.reverse, rest)
    | '\\' :: rest => do
      let (c, rest) ← readEscape rest
      readBasic steps (c :: text) rest
    | c :: rest => if isPrintable c then readBasic steps (c :: text) rest else none
    | [] => none

/-- The rest of a string in single quotes. -/
def readLiteral : List Char → Reader String
  | _, [] => none
  | text, '\'' :: rest => some (String.ofList text.reverse, rest)
  | text, c :: rest => if isPrintable c then readLiteral (c :: text) rest else none

/-- Where a string in triple quotes ends: up to two more quotes belong to the string. -/
def closeTriple? (quote : Char) (text : List Char) : List Char → Option (String × List Char)
  | a :: b :: c :: rest =>
    if a = quote && b = quote && c = quote then
      match rest with
      | d :: e :: rest' =>
        if d = quote && e = quote then
          some (String.ofList (quote :: quote :: text).reverse, rest')
        else if d = quote then some (String.ofList (quote :: text).reverse, e :: rest')
        else some (String.ofList text.reverse, rest)
      | [d] =>
        if d = quote then some (String.ofList (quote :: text).reverse, [])
        else some (String.ofList text.reverse, rest)
      | [] => some (String.ofList text.reverse, [])
    else none
  | _ => none

/-- The characters after blanks and line ends. -/
def skipLines (cs : List Char) : List Char :=
  cs.dropWhile fun c => c == ' ' || c == '\t' || c == '\n'

/-- The rest of a string in triple quotes, where line ends are single characters. A backslash at
    the end of a line joins it to the next text. -/
def readTriple (quote : Char) : Nat → List Char → Reader String
  | 0, _, _ => none
  | steps + 1, text, cs =>
    match closeTriple? quote text cs with
    | some found => some found
    | none =>
      match cs with
      | '\\' :: rest =>
        if quote = '\'' then readTriple quote steps ('\\' :: text) rest
        else
          match skipBlanks rest with
          | '\n' :: lines => readTriple quote steps text (skipLines lines)
          | _ => do
            let (c, rest) ← readEscape rest
            readTriple quote steps (c :: text) rest
      | c :: rest =>
        if c = '\n' || isPrintable c then readTriple quote steps (c :: text) rest else none
      | [] => none

/-- A string in any of the four forms. A line end right after an opening triple quote is left
    out. -/
def readString (cs : List Char) : Option (String × List Char) :=
  let steps := cs.length + 1
  let body (rest : List Char) : List Char :=
    match rest with
    | '\n' :: rest => rest
    | rest => rest
  match cs with
  | '"' :: '"' :: '"' :: rest => readTriple '"' steps [] (body rest)
  | '\'' :: '\'' :: '\'' :: rest => readTriple '\'' steps [] (body rest)
  | '"' :: rest => readBasic steps [] rest
  | '\'' :: rest => readLiteral [] rest
  | _ => none

/-! ## 3. Keys -/

/-- Whether a character may stand in a key without quotes. -/
def isBareKeyChar (c : Char) : Bool :=
  c.isAlphanum || c == '_' || c == '-'

/-- One part of a key. -/
def readSimpleKey (cs : List Char) : Option (String × List Char) :=
  match cs with
  | '"' :: '"' :: '"' :: _ | '\'' :: '\'' :: '\'' :: _ => none
  | '"' :: rest => readBasic (rest.length + 1) [] rest
  | '\'' :: rest => readLiteral [] rest
  | _ =>
    match cs.span isBareKeyChar with
    | ([], _) => none
    | (key, rest) => some (String.ofList key, rest)

/-- The parts of a key before its last, and the last. -/
structure Key where
  parts : List String
  last : String

/-- A key with dots between its parts. -/
def readKey : Nat → Reader Key
  | 0, _ => none
  | steps + 1, cs => do
    let (first, rest) ← readSimpleKey cs
    match skipBlanks rest with
    | '.' :: more => do
      let (key, rest) ← readKey steps (skipBlanks more)
      return (⟨first :: key.parts, key.last⟩, rest)
    | _ => return (⟨[], first⟩, rest)

/-! ## 4. Values -/

/-- Whether a character may stand in a value without quotes and brackets. -/
def isScalarChar (c : Char) : Bool :=
  c.isAlphanum || c == '+' || c == '-' || c == '_' || c == '.' || c == ':'

/-- A value without quotes and brackets. A blank may stand between a date and a time. -/
def readScalar (cs : List Char) : Option (Value × List Char) :=
  let (word, rest) := cs.span isScalarChar
  let (word, rest) :=
    match afterDate? word, rest with
    | some [], ' ' :: d :: more =>
      if d.isDigit then
        let (time, rest) := (d :: more).span isScalarChar
        (word ++ ' ' :: time, rest)
      else (word, rest)
    | _, _ => (word, rest)
  if word = "true".toList then some (.boolean true, rest)
  else if word = "false".toList then some (.boolean false, rest)
  else if isInteger word || isFloat word then some (.number, rest)
  else if isDateTime word then some (.dateTime, rest)
  else none

mutual

/-- A value. -/
def readValue : Nat → Reader Value
  | 0, _ => none
  | depth + 1, cs =>
    match cs with
    | '[' :: rest => readItems depth [] rest
    | '\x7b' :: rest =>
      match skipBlanks rest with
      | '\x7d' :: rest => some (.inline [], rest)
      | rest => readEntries depth [] rest
    | '"' :: _ | '\'' :: _ => (readString cs).map fun (text, rest) => (.string text, rest)
    | _ => readScalar cs

/-- The rest of an array, of which `items` holds, last item first, what was read. -/
def readItems : Nat → List Value → Reader Value
  | 0, _, _ => none
  | depth + 1, items, cs =>
    match skipSpace (cs.length + 1) cs with
    | ']' :: rest => some (.array items.reverse, rest)
    | rest => do
      let (item, rest) ← readValue depth rest
      match skipSpace (rest.length + 1) rest with
      | ',' :: rest => readItems depth (item :: items) rest
      | ']' :: rest => return (.array (item :: items).reverse, rest)
      | _ => none

/-- The rest of an inline table, with what was read of it. -/
def readEntries : Nat → Table → Reader Value
  | 0, _, _ => none
  | depth + 1, entries, cs => do
    let (key, rest) ← readKey (cs.length + 1) (skipBlanks cs)
    match skipBlanks rest with
    | '=' :: rest => do
      let (value, rest) ← readValue depth (skipBlanks rest)
      let entries ← entries.insert [] key.parts key.last value
      match skipBlanks rest with
      | ',' :: rest => readEntries depth entries rest
      | '\x7d' :: rest => return (.inline entries, rest)
      | _ => none
    | _ => none

end

/-! ## 5. Documents -/

/-- A header in single or double brackets: the keys of the section it opens, the root table with
    it, and what follows the closing brackets. -/
def readHeader (root : Table) (cs : List Char) : Option ((List String × Table) × List Char) := do
  match cs with
  | '[' :: '[' :: rest => do
    let (key, rest) ← readKey (rest.length + 1) (skipBlanks rest)
    match skipBlanks rest with
    | ']' :: ']' :: rest =>
      return ((key.parts ++ [key.last], ← root.openElement key.parts key.last), rest)
    | _ => none
  | '[' :: rest => do
    let (key, rest) ← readKey (rest.length + 1) (skipBlanks rest)
    match skipBlanks rest with
    | ']' :: rest =>
      return ((key.parts ++ [key.last], ← root.openTable key.parts key.last), rest)
    | _ => none
  | _ => none

/-- A key and its value in the section to which the header keys lead: the root table with them,
    and what follows. -/
def readAssignment (section_ : List String) (root : Table) (cs : List Char) :
    Option (Table × List Char) := do
  let (key, rest) ← readKey (cs.length + 1) cs
  match skipBlanks rest with
  | '=' :: rest => do
    let (value, rest) ← readValue (rest.length + 1) (skipBlanks rest)
    return (← root.insert section_ key.parts key.last value, rest)
  | _ => none

/-- The statements of a document from some place on. -/
def readStatements : Nat → List String → Table → List Char → Option Table
  | 0, _, _, _ => none
  | steps + 1, section_, root, cs =>
    match skipSpace (cs.length + 1) cs with
    | [] => some root
    | '[' :: rest => do
      let ((section_, root), rest) ← readHeader root ('[' :: rest)
      readStatements steps section_ root (← afterStatement? rest)
    | rest => do
      let (root, rest) ← readAssignment section_ root rest
      readStatements steps section_ root (← afterStatement? rest)

/-- The root table of a document. A byte order mark may precede it. -/
def readDocument (text : String) : Option Table :=
  let cs :=
    match text.toList with
    | '\uFEFF' :: rest => rest
    | cs => cs
  let cs := unifyLineEnds cs
  readStatements (cs.length + 1) [] [] cs

end GoStencil.Toml
