import GoStencil.SourceFile.Parser
import GoStencil.SourceFile.Printer
import GoStencil.Proofs.TypeExpr.Reread
import GoStencil.Proofs.Grammar.Phrases

/-!
# Files that can be read back

A file is made of names, types and token streams. What stands in it is read back when the names
are identifiers, the types are readable and the streams are read to their ends.

* `SourceFile.IsReadable`: the files whose declarations can be read back.
* `SourceFile.reread`: the file that comes back, but for what a text does not show.
* `SourceFile.bare`: a file without that: its places in a text, and the seams of its streams.
-/

namespace GoStencil

open Grammar

/-! ## 1. Readable files -/

/-- Whether a path can stand between quotes, and names a package. -/
def isImportPath (path : String) : Bool :=
  !path.toList.isEmpty && !path.toList.any Text.isBlank && closesString (path.toList ++ ['"'])

/-- Whether an import is written as one. -/
structure ImportSpec.IsReadable (spec : ImportSpec) : Prop where
  name : ∀ ident, spec.alias? = some ident → ident = "." ∨ isName ident = true
  path : isImportPath spec.path = true

/-- Whether a list of parameters is read again from its text. -/
structure FieldList.IsReadable (fields : FieldList) : Prop where
  shape : fields.AreEntries
  types : ∀ field ∈ fields.toList, field.type.variadicElem.IsReadable

/-- Whether a stream is read as the body of a function, whatever follows it. -/
structure Body.IsBlock (body : Body) : Prop where
  opens : ∃ cs, body.source.toList = '\x7b' :: cs
  takes : ∀ tail, Takes .spaced (.call .funcBody) (body.source.toList ++ tail) tail fun nodes =>
    ∃ read, Body.ofNodes? nodes = some read ∧ read.source = body.source

/-- Whether a declaration of values is read up to the end of its line. -/
def ValueDecl.IsLine (decl : ValueDecl) : Prop :=
  ∀ tail, Takes .spaced (.call .valueDecl) (decl.render.toList ++ '\n' :: tail) ('\n' :: tail)
    (Makes .valueDecl fun parts => ∃ read : Body, read.source = decl.body.source ∧
      ∀ span, ValueDecl.ofParts span parts = .ok ⟨decl.keyword, read, span⟩)

/-- Whether the names and types of a declaration are read again from their texts. -/
inductive Decl.IsReadable : Decl → Prop where
  | type {decl : TypeDecl} (hname : isName decl.name = true) (htype : decl.type.IsReadable) :
      IsReadable (.type decl)
  | func {decl : FuncDecl} (hname : isName decl.name = true)
      (hreceiver : ∀ receiver, decl.receiver = some receiver → receiver.IsReadable)
      (hsignature : (TypeExpr.function decl.params decl.results).IsReadable) :
      IsReadable (.func decl)
  | value (decl : ValueDecl) : IsReadable (.value decl)

/-- Whether the token stream of a declaration is read to its end. -/
def Decl.IsStreamRead : Decl → Prop
  | .type _ => True
  | .func decl => ∀ body, decl.body = some body → body.IsBlock
  | .value decl => decl.IsLine

/-- Whether the names, paths and types of a file are read again from their texts. -/
structure SourceFile.IsReadable (file : SourceFile) : Prop where
  package : isName file.package = true
  imports : ∀ spec ∈ file.imports, spec.IsReadable
  decls : ∀ decl ∈ file.decls, decl.IsReadable

/-! ## 2. What files are read as -/

/-- The type declaration that is read from the text of one. -/
def TypeDecl.reread (decl : TypeDecl) : TypeDecl :=
  { decl with type := decl.type.reread }

/-- The function declaration that is read from the text of one. -/
def FuncDecl.reread (decl : FuncDecl) : FuncDecl :=
  { decl with
    receiver := decl.receiver.map FieldList.reread
    params := decl.params.reread
    results := decl.results.reread.unwrapSingle }

/-- The declaration that is read from the text of one. -/
def Decl.reread : Decl → Decl
  | .type decl => .type decl.reread
  | .func decl => .func decl.reread
  | .value decl => .value decl

/-- The file that is read from the text of one. -/
def SourceFile.reread (file : SourceFile) : SourceFile :=
  { file with decls := file.decls.map Decl.reread }

/-- No place in a text. -/
def Span.nowhere : Span :=
  ⟨0, 0⟩

/-- A token stream in one piece. -/
def Body.flat (body : Body) : Body :=
  ⟨[.text body.source]⟩

/-- An import without its place. -/
def ImportSpec.bare (spec : ImportSpec) : ImportSpec :=
  { spec with span := .nowhere }

/-- A declaration without its place, and with its stream in one piece. -/
def Decl.bare : Decl → Decl
  | .type decl => .type { decl with span := .nowhere }
  | .func decl => .func { decl with body := decl.body.map Body.flat, span := .nowhere }
  | .value decl => .value { decl with body := decl.body.flat, span := .nowhere }

/-- A file without the places of what is in it, and with its streams in one piece. -/
def SourceFile.bare (file : SourceFile) : SourceFile :=
  { file with
    imports := file.imports.map ImportSpec.bare
    decls := file.decls.map Decl.bare
    sourceName := none }

end GoStencil
