import GoStencil.SourceFile

/-!
# Names of a source file

One flat space of type names: the first declaration of a name counts, and the names of imported
packages are a space of their own.

* `Scope.lookup`: the declaration of a type name.
* `Scope.resolve`: a type with the names at its head replaced by what they are declared as. It
  stops at a name it has been through, so a cycle of names is left at the first of them.
-/

namespace GoStencil

/-- The first declaration of each name, in order. -/
def firstByName : List TypeDecl → List TypeDecl
  | [] => []
  | decl :: rest => decl :: (firstByName rest).filter (·.name ≠ decl.name)

/-- What the names in a source file mean. -/
structure Scope where
  package : String
  imports : List ImportSpec
  /-- The type declarations in order, one for each name. -/
  types : List TypeDecl

/-- The scope of a source file. -/
def SourceFile.scope (file : SourceFile) : Scope :=
  ⟨file.package, file.imports, firstByName file.typeDecls⟩

namespace Scope

/-- The declaration of a type name. -/
def lookup (scope : Scope) (name : String) : Option TypeDecl :=
  scope.types.find? (·.name == name)

/-- Whether the name is declared as the empty interface. -/
def isPlaceholder (scope : Scope) (name : String) : Bool :=
  (scope.lookup name).any TypeDecl.isPlaceholder

/-- The import that a qualifier refers to. -/
def qualifierOf (scope : Scope) (qualifier : String) : Option ImportSpec :=
  scope.imports.find? (·.localName == qualifier)

/-- Follows names at the head of a type, at most the given number of times and never a name that
    was followed before. -/
def resolveFrom (scope : Scope) : Nat → List String → TypeExpr → TypeExpr
  | 0, _, type => type.unparen
  | steps + 1, seen, type =>
    match type.unparen with
    | .name ident =>
      if seen.contains ident then .name ident
      else
        match scope.lookup ident with
        | some decl => resolveFrom scope steps (ident :: seen) decl.type
        | none => .name ident
    | other => other

/-- The type without parentheses around it, and with a declared name replaced by its definition,
    again and again. No declaration is followed twice, so there are never more steps than
    declarations. -/
def resolve (scope : Scope) (type : TypeExpr) : TypeExpr :=
  scope.resolveFrom scope.types.length [] type

end Scope

end GoStencil
