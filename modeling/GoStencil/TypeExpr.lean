/-!
# Type expressions

The types of Go as written: every parenthesis, parameter name and tag is kept. One list type
serves struct fields, interface members, parameters and results.

* `TypeExpr`, `FieldList`: the trees. A list entry may declare several names at once
  (`a, b int`) or none (an embedded field, an unnamed parameter).
* `FieldList.toList`, `FieldList.ofList`: the list as a `List Field`, and back.
* `FieldList.entryTypes`, `FieldList.namedEntries`: one item per declared name.
* `TypeExpr.unparen`, `TypeExpr.isEmptyInterface`: the two tests every pass asks for.
-/

namespace GoStencil

/-- What a channel may be used for. -/
inductive Direction where
  | both
  | send
  | receive
  deriving DecidableEq, Repr

mutual

/-- A type expression. -/
inductive TypeExpr where
  /-- A declared or predeclared name, `T`. -/
  | name (ident : String)
  /-- A name of another package, `pkg.T`. -/
  | qualified (package ident : String)
  /-- A pointer, `*T`. -/
  | pointer (elem : TypeExpr)
  /-- An array `[N]T`, or a slice `[]T` when the length is `none`. -/
  | array (length : Option String) (elem : TypeExpr)
  /-- The type of a last parameter that takes any number of arguments, `...T`. -/
  | variadic (elem : TypeExpr)
  /-- A type in parentheses, `(T)`. -/
  | paren (inner : TypeExpr)
  /-- A channel, `chan T`, `chan<- T` or `<-chan T`. -/
  | channel (direction : Direction) (value : TypeExpr)
  /-- A map, `map[K]V`. -/
  | map (key value : TypeExpr)
  /-- A function, `func(params) results`. -/
  | function (params results : FieldList)
  /-- A struct with its fields. -/
  | struct (fields : FieldList)
  /-- An interface with its methods and embedded interfaces. -/
  | interface (members : FieldList)
  deriving DecidableEq, Repr

/-- A list of fields, parameters, results or interface members. -/
inductive FieldList where
  | nil
  /-- An entry with its names, type and tag, before the other entries. -/
  | cons (names : List String) (type : TypeExpr) (tag : Option String) (rest : FieldList)
  deriving DecidableEq, Repr

end

instance : Inhabited TypeExpr := ⟨.name ""⟩

instance : Inhabited FieldList := ⟨.nil⟩

/-- One entry of a field list. -/
structure Field where
  names : List String
  type : TypeExpr
  tag : Option String
  deriving DecidableEq, Repr

namespace TypeExpr

/-- The empty interface, which stands for any type. -/
def emptyInterface : TypeExpr :=
  .interface .nil

/-- Whether the type is the empty interface as written, without parentheses. -/
def isEmptyInterface : TypeExpr → Bool
  | .interface .nil => true
  | _ => false

/-- The type inside any number of parentheses. -/
def unparen : TypeExpr → TypeExpr
  | .paren inner => inner.unparen
  | type => type

/-- The name an embedded field of this type goes by: that of the type, or of the type it points
    to. -/
def embeddedName? : TypeExpr → Option String
  | .name ident => some ident
  | .qualified _ ident => some ident
  | .pointer elem => elem.embeddedName?
  | .paren inner => inner.embeddedName?
  | _ => none

end TypeExpr

/-- The names an entry declares, or the name an embedded field goes by. -/
def effectiveNames (names : List String) (type : TypeExpr) : List String :=
  match names with
  | [] => type.embeddedName?.toList
  | _ :: _ => names

/-- How many entries a list of names stands for: one each, and one for an unnamed entry. -/
def entryCount (names : List String) : Nat :=
  max names.length 1

namespace FieldList

/-- The entries in order. -/
def toList : FieldList → List Field
  | .nil => []
  | .cons names type tag rest => ⟨names, type, tag⟩ :: rest.toList

/-- The list with the given entries. -/
def ofList : List Field → FieldList
  | [] => .nil
  | field :: rest => .cons field.names field.type field.tag (ofList rest)

@[simp] theorem toList_ofList (fields : List Field) : (ofList fields).toList = fields := by
  induction fields with
  | nil => rfl
  | cons field rest ih => simp [ofList, toList, ih]

@[simp] theorem ofList_toList : ∀ fields : FieldList, ofList fields.toList = fields
  | .nil => rfl
  | .cons _ _ _ rest => by simp [ofList, toList, ofList_toList rest]

/-- Whether the list has no entries. -/
def isEmpty : FieldList → Bool
  | .nil => true
  | .cons .. => false

/-- The number of declared entries: `a, b int` counts as two. -/
def numFields : FieldList → Nat
  | .nil => 0
  | .cons names _ _ rest => entryCount names + rest.numFields

/-- One type per declared entry, in order. -/
def entryTypes : FieldList → List TypeExpr
  | .nil => []
  | .cons names type _ rest => List.replicate (entryCount names) type ++ rest.entryTypes

@[simp] theorem length_entryTypes : ∀ fields : FieldList,
    fields.entryTypes.length = fields.numFields
  | .nil => rfl
  | .cons _ _ _ rest => by simp [entryTypes, numFields, length_entryTypes rest]

/-- Every declared name with its type, in order; an unnamed entry has no name. -/
def namedEntries : FieldList → List (Option String × TypeExpr)
  | .nil => []
  | .cons [] type _ rest => (none, type) :: rest.namedEntries
  | .cons names type _ rest => names.map (fun name => (some name, type)) ++ rest.namedEntries

/-- The first entry that declares the name, or goes by it. -/
def find? (name : String) : FieldList → Option Field
  | .nil => none
  | .cons names type tag rest =>
    if (effectiveNames names type).contains name then some ⟨names, type, tag⟩
    else rest.find? name

end FieldList

end GoStencil
