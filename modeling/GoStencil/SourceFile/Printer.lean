import GoStencil.SourceFile
import GoStencil.TypeExpr.Printer

/-!
# Source files as text

The layout of a written file: the package clause, the imports (in a group when there are several),
and the declarations with a blank line before each. A struct or interface that is declared has one
member to a line; all other types are written on one line.
-/

namespace GoStencil

/-- An import without its keyword. -/
def ImportSpec.render (spec : ImportSpec) : String :=
  match spec.alias? with
  | some ident => ident ++ " \"" ++ spec.path ++ "\""
  | none => "\"" ++ spec.path ++ "\""

/-- Each text on a line of its own, after a tab. -/
def indentedLines (items : List String) : String :=
  String.join (items.map fun item => "\t" ++ item ++ "\n")

/-- The type of a declaration. -/
def TypeExpr.renderBlock (type : TypeExpr) : String :=
  match type with
  | .struct (.cons names field tag rest) =>
    "struct \x7b\n" ++ indentedLines (FieldList.cons names field tag rest).renderEntries ++ "\x7d"
  | .interface (.cons names member tag rest) =>
    "interface \x7b\n" ++ indentedLines (FieldList.cons names member tag rest).renderMembers ++
      "\x7d"
  | type => type.render

/-- A type declaration. -/
def TypeDecl.render (decl : TypeDecl) : String :=
  "type " ++ decl.name ++ (if decl.isAlias then " = " else " ") ++ decl.type.renderBlock

/-- A function declaration. -/
def FuncDecl.render (decl : FuncDecl) : String :=
  let receiver :=
    match decl.receiver with
    | some receiver => receiver.render ++ " "
    | none => ""
  let body :=
    match decl.body with
    | some body => " " ++ body.source
    | none => ""
  "func " ++ receiver ++ decl.name ++ renderSignature decl.params decl.results ++ body

/-- A value declaration. -/
def ValueDecl.render (decl : ValueDecl) : String :=
  decl.keyword.render ++ decl.body.source

/-- A declaration. -/
def Decl.render : Decl → String
  | .type decl => decl.render
  | .func decl => decl.render
  | .value decl => decl.render

/-- The import declaration of a file, with the blank line before it. -/
def renderImports : List ImportSpec → String
  | [] => ""
  | [spec] => "\nimport " ++ spec.render ++ "\n"
  | specs => "\nimport (\n" ++ indentedLines (specs.map ImportSpec.render) ++ ")\n"

/-- The whole file. -/
def SourceFile.render (file : SourceFile) : String :=
  "package " ++ file.package ++ "\n" ++ renderImports file.imports ++
    String.join (file.decls.map fun decl => "\n" ++ decl.render ++ "\n")

end GoStencil
