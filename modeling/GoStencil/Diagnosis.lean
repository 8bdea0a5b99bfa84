import GoStencil.Grammar.Attempts
import GoStencil.Grammar.Declarations
import GoStencil.ParseError
import GoStencil.SourceFile.Parser
import GoStencil.Text.Lines

/-!
# Where and why a text is refused

The report of a text that the grammar does not accept: the furthest place at which a rule was
tried in vain, the source line it lies on, what was expected there, and the last line before it
that opens a declaration.

* `Rejection.ofText`: the place and the rules; `Rejection.report`: the report as text.
* `enclosingDeclaration?`: the line that opens the declaration around a place.
-/

namespace GoStencil

open Grammar

/-! ## 1. The place -/

/-- A text refused at a place. -/
structure Rejection where
  /-- The whole text. -/
  source : List Char
  /-- The byte offset of the place. -/
  offset : Nat
  /-- Rules that would have fitted, in the order of the rules and without repetition. -/
  expected : List Rule
  /-- Rules that fitted where they must not, likewise. -/
  unexpected : List Rule

namespace Rejection

/-- The rejection of a text that is read from a rule. -/
def ofText (rule : Rule) (text : String) : Rejection :=
  let attempts := declarations.attempts rule text
  ⟨text.toList, attempts.furthest, Rule.all.filter (attempts.expected.contains ·),
    Rule.all.filter (attempts.unexpected.contains ·)⟩

/-- The text before the place. -/
def before (rejection : Rejection) : List Char :=
  Cursor.takeBytes rejection.offset rejection.source

/-- The text from the place on. -/
def after (rejection : Rejection) : List Char :=
  rejection.source.drop rejection.before.length

/-- What precedes the place on its line. -/
def lineStart (rejection : Rejection) : List Char :=
  (rejection.before.reverse.takeWhile (· != '\n')).reverse

/-- The number of the line, from one. -/
def lineNumber (rejection : Rejection) : Nat :=
  rejection.before.count '\n' + 1

/-- The number of the column in characters, from one. -/
def column (rejection : Rejection) : Nat :=
  rejection.lineStart.length + 1

/-- The line with the characters of its line end. -/
def rawLine (rejection : Rejection) : List Char :=
  rejection.lineStart ++
    match rejection.after.span (· != '\n') with
    | (line, '\n' :: _) => line ++ ['\n']
    | (line, _) => line

/-- A character of a line in which line ends are shown. -/
def showLineEnd : Char → Char
  | '\r' => '␍'
  | '\n' => '␊'
  | c => c

/-- The line as shown: line ends appear only when the place is at one. -/
def shownLine (rejection : Rejection) : List Char :=
  match rejection.after with
  | '\n' :: _ | '\r' :: _ => rejection.rawLine.map showLineEnd
  | _ => rejection.rawLine.filter fun c => c != '\r' && c != '\n'

/-! ## 2. The report -/

/-- Some names as a choice: `a`, `a or b`, `a, b, or c`. -/
def enumerate : List String → String
  | [] => ""
  | [a] => a
  | [a, b] => a ++ " or " ++ b
  | names => ", ".intercalate names.dropLast ++ ", or " ++ names.getLastD ""

/-- What was expected and what was not, in the names of the grammar. -/
def summary (rejection : Rejection) : String :=
  let unexpected := "unexpected " ++ enumerate (rejection.unexpected.map Rule.label)
  let expected := "expected " ++ enumerate (rejection.expected.map Rule.label)
  match rejection.unexpected, rejection.expected with
  | [], [] => "unknown parsing error"
  | [], _ => expected
  | _, [] => unexpected
  | _, _ => unexpected ++ "; " ++ expected

/-- The mark under the shown line. -/
def underline (rejection : Rejection) : String :=
  let blanks := (rejection.shownLine.take (rejection.column - 1)).map fun c =>
    if c == '\t' then '\t' else ' '
  String.ofList blanks ++ "^---"

/-- The shown line with its number, the mark under it, and the summary. -/
def excerpt (rejection : Rejection) : String :=
  let line := toString rejection.lineNumber
  let margin := String.ofList (List.replicate line.length ' ')
  margin ++ "--> " ++ line ++ ":" ++ toString rejection.column ++ "\n" ++
    margin ++ " |\n" ++
    line ++ " | " ++ String.ofList rejection.shownLine ++ "\n" ++
    margin ++ " | " ++ rejection.underline ++ "\n" ++
    margin ++ " |\n" ++
    margin ++ " = " ++ rejection.summary

end Rejection

/-- A rule in words. -/
def Grammar.Rule.describe : Rule → String
  | .identifier | .identifierList => "an identifier (like Pipeline)"
  | .packageClause => "a package clause (package name)"
  | .importDecl | .importSpec => "an import (import \"fmt\")"
  | .importPath => "a quoted import path"
  | .typeDecl | .typeSpec => "a type declaration (type Name T)"
  | .funcDecl => "a function declaration (func Name(...) \x7b ... \x7d)"
  | .valueDecl => "a var or const declaration"
  | .typeExpr => "a type (like []T, map[K]V or chan T)"
  | .parameters => "a parameter list (like (a int, b string))"
  | .parameterDecl | .namedParameter => "a parameter"
  | .signature => "a function signature"
  | .fieldDecl => "a struct field"
  | .methodSpec => "an interface method"
  | .funcBody => "a function body (\x7b ... \x7d)"
  | .stringLit | .rawStringLit => "a string literal"
  | .endOfInput => "end of input"
  | rule => String.ofList (rule.label.toList.map fun c => if c == '_' then ' ' else c)

/-- The words that open a declaration. -/
def declarationWords : List String :=
  ["type", "func", "import", "package", "var", "const"]

/-- The last line of a text that begins with such a word, without blanks at its ends. -/
def enclosingDeclaration? (before : String) : Option String :=
  ((Text.lines before).reverse.map Text.trimStart).findSome? fun line =>
    if declarationWords.any (fun word => word.toList.isPrefixOf line.toList) then
      some (Text.trimEnd line)
    else none

/-- The report of a rejection. -/
def Rejection.report (rejection : Rejection) : String :=
  let expected :=
    if rejection.expected.isEmpty then ""
    else "\nexpected " ++ " or ".intercalate (rejection.expected.map Rule.describe)
  let context :=
    match enclosingDeclaration? (String.ofList rejection.before) with
    | some line => "\nwhile parsing the declaration \x60" ++ line ++ "\x60"
    | none => ""
  rejection.excerpt ++ expected ++ context

/-! ## 3. Errors of both kinds -/

/-- Where an error lies and what there is to say about it. -/
structure Diagnosis where
  offset : Nat
  length : Nat
  detail : String

/-- The diagnosis of an error in a text that was read from a rule. -/
def diagnose (rule : Rule) (text : String) : ParseError → Diagnosis
  | .rejected =>
    let rejection := Rejection.ofText rule text
    ⟨rejection.offset, 1, rejection.report⟩
  | .invalidImportPath quoted span => ⟨span.start, span.stop - span.start, quoted⟩
  | .malformedTree rule => ⟨0, 0, rule.label⟩

end GoStencil
