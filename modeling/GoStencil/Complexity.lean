import GoStencil.Scope

/-!
# How deeply a type is structured

A measure by which declarations are tried, the most structured first: binding such a type fixes
the types inside it. A declared name counts one more than its definition, except where it is being
measured already.

* `TypeExpr.weigh`: the measure for given weights of names.
* `Scope.nameWeight`: the weight of a name, given the names being measured.
* `Scope.complexity`, `Scope.declComplexity`: the measure of a type and of a declaration.
-/

namespace GoStencil

mutual

/-- The measure of a type in which each name has the given weight. -/
def TypeExpr.weigh (weight : String → Nat) : TypeExpr → Nat
  | .name ident => weight ident
  | .qualified package _ => weight package
  | .pointer elem => elem.weigh weight
  | .paren inner => inner.weigh weight
  | .variadic elem => elem.weigh weight
  | .array _ elem => elem.weigh weight + 1
  | .channel _ value => value.weigh weight + 1
  | .map key value => max (key.weigh weight) (value.weigh weight) + 1
  | .function params results =>
    max (params.weighTypes weight) (results.weighTypes weight) + 1
  | .struct fields => fields.weighTypes weight + 1
  | .interface _ => 1

/-- The greatest measure of a type in the list. -/
def FieldList.weighTypes (weight : String → Nat) : FieldList → Nat
  | .nil => 0
  | .cons _ type _ rest => max (type.weigh weight) (rest.weighTypes weight)

end

namespace Scope

/-- The weight of a name while the names in `path` are being measured. The number bounds how many
    more names may join them; when all declared names are in `path` no further one is needed. -/
def nameWeight (scope : Scope) : Nat → List String → String → Nat
  | 0, _, _ => 1
  | depth + 1, path, name =>
    if path.contains name then 1
    else
      match scope.lookup name with
      | some decl => decl.type.weigh (nameWeight scope depth (name :: path)) + 1
      | none => 1

/-- The measure of a type while the names in `path` are being measured. -/
def complexityWithin (scope : Scope) (path : List String) (type : TypeExpr) : Nat :=
  type.weigh (scope.nameWeight scope.types.length path)

/-- The measure of a type. -/
def complexity (scope : Scope) (type : TypeExpr) : Nat :=
  scope.complexityWithin [] type

/-- The measure of a declaration. -/
def declComplexity (scope : Scope) (decl : TypeDecl) : Nat :=
  scope.complexityWithin [decl.name] decl.type

end Scope

end GoStencil
