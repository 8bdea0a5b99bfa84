import GoStencil.TypeExpr
import GoStencil.Body

/-!
# Source files

A Go source file with just enough structure to replace types: the package, the imports, and the
type, function and value declarations in order. Grouped declarations are flattened.
-/

namespace GoStencil

/-- Byte offsets into a source text, end excluded. -/
structure Span where
  start : Nat
  stop : Nat
  deriving DecidableEq, Repr

/-- One import, with the name it is given in the file if it has one. -/
structure ImportSpec where
  alias? : Option String
  path : String
  span : Span
  deriving DecidableEq, Repr

/-- What follows the last slash of an import path. -/
def lastElement (path : String) : String :=
  String.ofList (path.toList.reverse.takeWhile (· != '/')).reverse

/-- The identifier by which the file refers to the import. -/
def ImportSpec.localName (spec : ImportSpec) : String :=
  match spec.alias? with
  | some ident => ident
  | none => lastElement spec.path

/-- A type declaration `type Name T`, or an alias declaration `type Name = T`. -/
structure TypeDecl where
  name : String
  isAlias : Bool
  type : TypeExpr
  span : Span
  deriving DecidableEq, Repr

/-- A declaration of the empty interface is a type variable, to be bound to any type. -/
def TypeDecl.isPlaceholder (decl : TypeDecl) : Bool :=
  decl.type.isEmptyInterface

/-- A function or method declaration. -/
structure FuncDecl where
  name : String
  receiver : Option FieldList
  params : FieldList
  results : FieldList
  body : Option Body
  span : Span
  deriving DecidableEq, Repr

/-- The word that opens a value declaration. -/
inductive ValueKeyword where
  | var
  | const
  deriving DecidableEq, Repr

/-- The word as written. -/
def ValueKeyword.render : ValueKeyword → String
  | .var => "var"
  | .const => "const"

/-- A `var` or `const` declaration, kept as written after the keyword. -/
structure ValueDecl where
  keyword : ValueKeyword
  body : Body
  span : Span
  deriving DecidableEq, Repr

/-- A top level declaration. -/
inductive Decl where
  | type (decl : TypeDecl)
  | func (decl : FuncDecl)
  | value (decl : ValueDecl)
  deriving DecidableEq, Repr

/-- A source file. -/
structure SourceFile where
  package : String
  imports : List ImportSpec
  decls : List Decl
  /-- Where the text came from, when that is known. -/
  sourceName : Option String
  deriving DecidableEq, Repr

namespace SourceFile

/-- The type declarations in order. -/
def typeDecls (file : SourceFile) : List TypeDecl :=
  file.decls.filterMap fun
    | .type decl => some decl
    | _ => none

/-- The function declarations in order. -/
def funcDecls (file : SourceFile) : List FuncDecl :=
  file.decls.filterMap fun
    | .func decl => some decl
    | _ => none

/-- Whether the file imports the path. -/
def importsPath (file : SourceFile) (path : String) : Bool :=
  file.imports.any (·.path == path)

end SourceFile

end GoStencil
