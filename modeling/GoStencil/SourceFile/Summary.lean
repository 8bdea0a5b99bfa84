import GoStencil.SourceFile.Printer
import GoStencil.Text.Blank
import GoStencil.Text.Lines

/-!
# A line for each declaration

What a file declares, one line for each import and declaration.
-/

namespace GoStencil

/-- An import in one line. -/
def ImportSpec.summary (spec : ImportSpec) : String :=
  match spec.alias? with
  | some ident => "ImportSpec: " ++ ident ++ " -> \"" ++ spec.path ++ "\""
  | none => "ImportSpec: \"" ++ spec.path ++ "\""

/-- A type declaration in one line. -/
def TypeDecl.summary (decl : TypeDecl) : String :=
  "TypeDecl: " ++ decl.name ++ (if decl.isAlias then " = " else " -> ") ++ decl.type.render

/-- A function declaration in one line: the type of its receiver, its name and its type. -/
def FuncDecl.summary (decl : FuncDecl) : String :=
  let type := (TypeExpr.function decl.params decl.results).render
  match decl.receiver.bind (·.toList.head?) with
  | some field => "FuncDecl: (" ++ field.type.render ++ ") " ++ decl.name ++ " -> " ++ type
  | none => "FuncDecl: " ++ decl.name ++ " -> " ++ type

/-- A value declaration in one line: the first line of what it declares. -/
def ValueDecl.summary (decl : ValueDecl) : String :=
  "ValueDecl: " ++ decl.keyword.render ++ " " ++
    Text.trim ((Text.lines decl.body.source).headD "")

/-- A declaration in one line. -/
def Decl.summary : Decl → String
  | .type decl => decl.summary
  | .func decl => decl.summary
  | .value decl => decl.summary

/-- The imports and declarations of a file, in order. -/
def SourceFile.summary (file : SourceFile) : List String :=
  file.imports.map ImportSpec.summary ++ file.decls.map Decl.summary

end GoStencil
