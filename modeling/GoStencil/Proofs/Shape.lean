import GoStencil.Proofs.Equivalence

/-!
# Types apart from how they are written

What is left of a type expression when its parentheses, tags and parameter names are gone and every
entry of a list stands for itself. Equivalent types are those of one shape.

* `Shape`: the types, with lists in place of entries.
* `TypeExpr.shape`: the shape of an expression.
* `TypeExpr.equivalent_iff_shape_eq`: equivalence is equality of shapes, hence an equivalence.
-/

namespace GoStencil

/-! ## 1. Shapes -/

/-- A type apart from how it is written. -/
inductive Shape where
  | name (ident : String)
  | qualified (package ident : String)
  | pointer (elem : Shape)
  | array (length : Option String) (elem : Shape)
  | variadic (elem : Shape)
  | channel (direction : Direction) (value : Shape)
  | map (key value : Shape)
  /-- A function takes and returns types, whatever its parameters and results are called. -/
  | function (params results : List Shape)
  /-- The fields of a struct have names, unless they are embedded. -/
  | struct (fields : List (Option String × Shape))
  | interface (members : List (Option String × Shape))

mutual

/-- The type that an expression writes. -/
def TypeExpr.shape : TypeExpr → Shape
  | .name ident => .name ident
  | .qualified package ident => .qualified package ident
  | .pointer elem => .pointer elem.shape
  | .array length elem => .array length elem.shape
  | .variadic elem => .variadic elem.shape
  | .paren inner => inner.shape
  | .channel direction value => .channel direction value.shape
  | .map key value => .map key.shape value.shape
  | .function params results => .function params.shapes results.shapes
  | .struct fields => .struct fields.namedShapes
  | .interface members => .interface members.namedShapes

/-- The types of the entries: one for each declared name, and one for an unnamed entry. -/
def FieldList.shapes : FieldList → List Shape
  | .nil => []
  | .cons [] type _ rest => type.shape :: rest.shapes
  | .cons names type _ rest => names.map (fun _ => type.shape) ++ rest.shapes

/-- Each declared name with its type; an unnamed entry has no name. -/
def FieldList.namedShapes : FieldList → List (Option String × Shape)
  | .nil => []
  | .cons [] type _ rest => (none, type.shape) :: rest.namedShapes
  | .cons names type _ rest => names.map (fun name => (some name, type.shape)) ++ rest.namedShapes

end

/-! ## 2. The normal form has the shape of the expression -/

namespace FieldList

theorem shapes_ofTypes (types : List TypeExpr) :
    (ofTypes types).shapes = types.map TypeExpr.shape := by
  induction types with
  | nil => rfl
  | cons type rest ih => rw [ofTypes, shapes, ih, List.map_cons]

theorem namedShapes_ofNamed (entries : List (Option String × TypeExpr)) :
    (ofNamed entries).namedShapes = entries.map fun entry => (entry.1, entry.2.shape) := by
  induction entries with
  | nil => rfl
  | cons entry rest ih =>
    obtain ⟨name, type⟩ := entry
    cases name with
    | none => simp [ofNamed, namedShapes, ih]
    | some name => simp [ofNamed, namedShapes, ih]

end FieldList

open FieldList (normalTypes normalNamed) in
mutual

theorem TypeExpr.shape_normal : ∀ type : TypeExpr, type.normal.shape = type.shape
  | .name _ | .qualified .. => rfl
  | .pointer elem | .array _ elem | .variadic elem | .channel _ elem => by
    simp only [TypeExpr.normal, TypeExpr.shape, TypeExpr.shape_normal elem]
  | .paren inner => by
    simp only [TypeExpr.normal, TypeExpr.shape, TypeExpr.shape_normal inner]
  | .map key value => by
    simp only [TypeExpr.normal, TypeExpr.shape, TypeExpr.shape_normal key,
      TypeExpr.shape_normal value]
  | .function params results => by
    simp only [TypeExpr.normal, TypeExpr.shape, FieldList.shapes_ofTypes,
      FieldList.map_shape_normalTypes params, FieldList.map_shape_normalTypes results]
  | .struct fields | .interface fields => by
    simp only [TypeExpr.normal, TypeExpr.shape, FieldList.namedShapes_ofNamed,
      FieldList.map_shape_normalNamed fields]

theorem FieldList.map_shape_normalTypes : ∀ fields : FieldList,
    fields.normalTypes.map TypeExpr.shape = fields.shapes
  | .nil => rfl
  | .cons names type tag rest => by
    have htype := TypeExpr.shape_normal type
    have hrest := FieldList.map_shape_normalTypes rest
    cases names with
    | nil => simp [normalTypes, FieldList.shapes, entryCount, htype, hrest]
    | cons name names =>
      simp [normalTypes, FieldList.shapes, entryCount, htype, hrest, List.map_const',
        List.replicate_succ]

theorem FieldList.map_shape_normalNamed : ∀ fields : FieldList,
    (fields.normalNamed.map fun entry => (entry.1, entry.2.shape)) = fields.namedShapes
  | .nil => rfl
  | .cons names type tag rest => by
    have htype := TypeExpr.shape_normal type
    have hrest := FieldList.map_shape_normalNamed rest
    cases names with
    | nil => simp [normalNamed, FieldList.namedShapes, htype, hrest]
    | cons name names => simp [normalNamed, FieldList.namedShapes, htype, hrest]

end

/-! ## 3. The shape writes the normal form -/

mutual

/-- The expression that writes a type without anything that its shape leaves out. -/
def Shape.write : Shape → TypeExpr
  | .name ident => .name ident
  | .qualified package ident => .qualified package ident
  | .pointer elem => .pointer elem.write
  | .array length elem => .array length elem.write
  | .variadic elem => .variadic elem.write
  | .channel direction value => .channel direction value.write
  | .map key value => .map key.write value.write
  | .function params results => .function (Shape.writeTypes params) (Shape.writeTypes results)
  | .struct fields => .struct (Shape.writeNamed fields)
  | .interface members => .interface (Shape.writeNamed members)

def Shape.writeTypes : List Shape → FieldList
  | [] => .nil
  | shape :: rest => .cons [] shape.write none (Shape.writeTypes rest)

def Shape.writeNamed : List (Option String × Shape) → FieldList
  | [] => .nil
  | (label, shape) :: rest => .cons label.toList shape.write none (Shape.writeNamed rest)

end

namespace Shape

theorem writeTypes_eq (shapes : List Shape) : writeTypes shapes = .ofTypes (shapes.map write) := by
  induction shapes with
  | nil => rfl
  | cons shape rest ih => rw [writeTypes, ih, List.map_cons, FieldList.ofTypes]

theorem writeNamed_eq (entries : List (Option String × Shape)) :
    writeNamed entries = .ofNamed (entries.map fun entry => (entry.1, entry.2.write)) := by
  induction entries with
  | nil => rfl
  | cons entry rest ih => rw [writeNamed, ih, List.map_cons, FieldList.ofNamed]

end Shape

open FieldList (normalTypes normalNamed) in
mutual

theorem TypeExpr.write_shape : ∀ type : TypeExpr, type.shape.write = type.normal
  | .name _ | .qualified .. => rfl
  | .pointer elem | .array _ elem | .variadic elem | .channel _ elem => by
    simp only [TypeExpr.shape, Shape.write, TypeExpr.normal, TypeExpr.write_shape elem]
  | .paren inner => by
    simp only [TypeExpr.shape, TypeExpr.normal, TypeExpr.write_shape inner]
  | .map key value => by
    simp only [TypeExpr.shape, Shape.write, TypeExpr.normal, TypeExpr.write_shape key,
      TypeExpr.write_shape value]
  | .function params results => by
    simp only [TypeExpr.shape, Shape.write, TypeExpr.normal, Shape.writeTypes_eq,
      FieldList.map_write_shapes params, FieldList.map_write_shapes results]
  | .struct fields | .interface fields => by
    simp only [TypeExpr.shape, Shape.write, TypeExpr.normal, Shape.writeNamed_eq,
      FieldList.map_write_namedShapes fields]

theorem FieldList.map_write_shapes : ∀ fields : FieldList,
    fields.shapes.map Shape.write = fields.normalTypes
  | .nil => rfl
  | .cons names type tag rest => by
    have htype := TypeExpr.write_shape type
    have hrest := FieldList.map_write_shapes rest
    cases names with
    | nil => simp [normalTypes, FieldList.shapes, entryCount, htype, hrest]
    | cons name names =>
      simp [normalTypes, FieldList.shapes, entryCount, htype, hrest, List.map_const',
        List.replicate_succ]

theorem FieldList.map_write_namedShapes : ∀ fields : FieldList,
    (fields.namedShapes.map fun entry => (entry.1, entry.2.write)) = fields.normalNamed
  | .nil => rfl
  | .cons names type tag rest => by
    have htype := TypeExpr.write_shape type
    have hrest := FieldList.map_write_namedShapes rest
    cases names with
    | nil => simp [normalNamed, FieldList.namedShapes, htype, hrest]
    | cons name names => simp [normalNamed, FieldList.namedShapes, htype, hrest]

end

/-! ## 4. Equivalence -/

/-- Two expressions have one normal form exactly when they have one shape. -/
theorem TypeExpr.normal_eq_iff_shape_eq {a b : TypeExpr} :
    a.normal = b.normal ↔ a.shape = b.shape := by
  constructor
  · intro h
    rw [← a.shape_normal, h, b.shape_normal]
  · intro h
    rw [← a.write_shape, h, b.write_shape]

/-- **Two expressions are equivalent exactly when they have one shape**, so that equivalence is
    reflexive, symmetric and transitive. -/
theorem TypeExpr.equivalent_iff_shape_eq :
    (∀ a b : TypeExpr, a.equivalent b = true ↔ a.shape = b.shape) ∧
      Equivalence fun a b : TypeExpr => a.equivalent b = true := by
  constructor
  · intro a b
    exact (equivalent_iff_normal_eq a b).trans normal_eq_iff_shape_eq
  · exact ⟨equivalent_refl, equivalent_comm, equivalent_trans⟩

/-- A group of parameters is as many parameters, whatever they are called. -/
example :
    TypeExpr.equivalent
      (.function (.cons ["a", "b"] (.name "T") none .nil) .nil)
      (.paren (.function (.cons [] (.name "T") none
        (.cons ["c"] (.paren (.name "T")) none .nil)) .nil)) = true := by
  decide

end GoStencil
