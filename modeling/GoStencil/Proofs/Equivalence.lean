import GoStencil.TypeExpr.Equivalence

/-!
# Equivalence is equality of normal forms

What `TypeExpr.equivalent` ignores is removed once and for all: parentheses and tags at any depth,
the names of parameters and results, and the grouping of entries.

* `TypeExpr.normal`: the normal form, again a type expression.
* `equivalent_iff_normal_eq`: two types are equivalent exactly when their normal forms are equal,
  so equivalence may be rewritten with, transported and inverted.
-/

namespace GoStencil

/-! ## 1. Lists of single entries -/

namespace FieldList

/-- Unnamed entries of the given types. -/
def ofTypes : List TypeExpr → FieldList
  | [] => .nil
  | type :: rest => .cons [] type none (ofTypes rest)

/-- Entries that each declare one name, or none. -/
def ofNamed : List (Option String × TypeExpr) → FieldList
  | [] => .nil
  | (name, type) :: rest => .cons name.toList type none (ofNamed rest)

theorem ofTypes_inj : ∀ {a b : List TypeExpr}, ofTypes a = ofTypes b ↔ a = b
  | [], [] => by simp
  | [], _ :: _ => by simp [ofTypes]
  | _ :: _, [] => by simp [ofTypes]
  | _ :: _, _ :: _ => by simp [ofTypes, ofTypes_inj]

theorem ofNamed_inj : ∀ {a b : List (Option String × TypeExpr)}, ofNamed a = ofNamed b ↔ a = b
  | [], [] => by simp
  | [], _ :: _ => by simp [ofNamed]
  | _ :: _, [] => by simp [ofNamed]
  | (m, s) :: a, (n, t) :: b => by
    have hnames : m.toList = n.toList ↔ m = n := by cases m <;> cases n <;> simp
    simp [ofNamed, ofNamed_inj, hnames, and_assoc]

end FieldList

/-! ## 2. Normal forms -/

mutual

/-- The type without anything that equivalence ignores. -/
def TypeExpr.normal : TypeExpr → TypeExpr
  | .name ident => .name ident
  | .qualified package ident => .qualified package ident
  | .pointer elem => .pointer elem.normal
  | .array length elem => .array length elem.normal
  | .variadic elem => .variadic elem.normal
  | .paren inner => inner.normal
  | .channel direction value => .channel direction value.normal
  | .map key value => .map key.normal value.normal
  | .function params results =>
    .function (.ofTypes params.normalTypes) (.ofTypes results.normalTypes)
  | .struct fields => .struct (.ofNamed fields.normalNamed)
  | .interface members => .interface (.ofNamed members.normalNamed)

/-- The normal form of the type of each declared entry. -/
def FieldList.normalTypes : FieldList → List TypeExpr
  | .nil => []
  | .cons names type _ rest => List.replicate (entryCount names) type.normal ++ rest.normalTypes

/-- Each declared name with the normal form of its type. -/
def FieldList.normalNamed : FieldList → List (Option String × TypeExpr)
  | .nil => []
  | .cons names type _ rest =>
    (if names.isEmpty then [none] else names.map some).map (·, type.normal) ++ rest.normalNamed

end

theorem TypeExpr.normal_unparen : ∀ type : TypeExpr, type.unparen.normal = type.normal
  | .paren inner => by simp only [unparen, normal]; exact normal_unparen inner
  | .name _ | .qualified .. | .pointer _ | .array .. | .variadic _ | .channel .. | .map ..
  | .function .. | .struct _ | .interface _ => rfl

namespace FieldList

theorem normalTypes_eq : ∀ fields : FieldList,
    fields.normalTypes = fields.entryTypes.map TypeExpr.normal
  | .nil => rfl
  | .cons _ _ _ rest => by simp [normalTypes, entryTypes, normalTypes_eq rest]

theorem normalNamed_eq : ∀ fields : FieldList,
    fields.normalNamed = fields.namedEntries.map fun entry => (entry.1, entry.2.normal)
  | .nil => rfl
  | .cons [] _ _ rest => by simp [normalNamed, namedEntries, normalNamed_eq rest]
  | .cons (_ :: _) _ _ rest => by simp [normalNamed, namedEntries, normalNamed_eq rest]

end FieldList

/-! ## 3. The two sides agree -/

/-- A list begins with another exactly when its first entries are that list. -/
theorem append_eq_iff_take_drop {α : Type} {front tail list : List α} :
    front ++ tail = list ↔
      list.take front.length = front ∧ list.drop front.length = tail := by
  constructor
  · rintro rfl
    exact ⟨List.take_left, List.drop_left⟩
  · rintro ⟨hfront, htail⟩
    rw [← List.take_append_drop front.length list, hfront, htail]

/-- Entries have the given keys and all one value when they are those keys paired with it. -/
theorem map_eq_pairs_iff {α β γ : Type} {f : β → γ} {c : γ} :
    ∀ (entries : List (α × β)) (keys : List α),
      (entries.map fun entry => (entry.1, f entry.2)) = keys.map (·, c) ↔
        entries.map (·.1) = keys ∧ ∀ entry ∈ entries, c = f entry.2
  | [], [] => by simp
  | [], _ :: _ => by simp
  | _ :: _, [] => by simp
  | (a, b) :: entries, key :: keys => by
    have ih := map_eq_pairs_iff (f := f) (c := c) entries keys
    simp only [List.map_cons, List.cons.injEq, Prod.mk.injEq, List.forall_mem_cons, ih]
    constructor
    · rintro ⟨⟨rfl, rfl⟩, hkeys, hall⟩
      exact ⟨⟨rfl, hkeys⟩, rfl, hall⟩
    · rintro ⟨⟨rfl, hkeys⟩, rfl, hall⟩
      exact ⟨⟨rfl, rfl⟩, hkeys, hall⟩

theorem TypeExpr.unparen_ne_paren : ∀ type inner : TypeExpr, type.unparen ≠ .paren inner
  | .paren outer, inner => by simpa only [unparen] using unparen_ne_paren outer inner
  | .name _, _ | .qualified .., _ | .pointer _, _ | .array .., _ | .variadic _, _
  | .channel .., _ | .map .., _ | .function .., _ | .struct _, _ | .interface _, _ => nofun

theorem TypeExpr.unparen_of_ne_paren {type : TypeExpr} (h : ∀ inner, type ≠ .paren inner) :
    type.unparen = type := by
  cases type with
  | paren inner => exact absurd rfl (h inner)
  | _ => rfl

open TypeExpr (equivalent normal) in
open FieldList (positionallyEquivalent normalTypes nominallyEquivalent normalNamed) in
mutual

/-- **Two types are equivalent exactly when they have one normal form.** -/
theorem TypeExpr.equivalent_iff_normal_eq :
    ∀ a b : TypeExpr, a.equivalent b = true ↔ a.normal = b.normal
  | .paren inner, b => by
    simp only [equivalent, normal]
    exact TypeExpr.equivalent_iff_normal_eq inner b
  | .name ident, b => by
    rw [← b.normal_unparen]
    have hp := b.unparen_ne_paren
    unfold TypeExpr.equivalent
    cases h : b.unparen <;> simp_all [normal]
  | .qualified package ident, b => by
    rw [← b.normal_unparen]
    have hp := b.unparen_ne_paren
    unfold TypeExpr.equivalent
    cases h : b.unparen <;> simp_all [normal]
  | .pointer elem, b => by
    rw [← b.normal_unparen]
    have hp := b.unparen_ne_paren
    have ih := TypeExpr.equivalent_iff_normal_eq elem
    unfold TypeExpr.equivalent
    cases h : b.unparen <;> simp_all [normal]
  | .array length elem, b => by
    rw [← b.normal_unparen]
    have hp := b.unparen_ne_paren
    have ih := TypeExpr.equivalent_iff_normal_eq elem
    unfold TypeExpr.equivalent
    cases h : b.unparen <;> simp_all [normal]
  | .variadic elem, b => by
    rw [← b.normal_unparen]
    have hp := b.unparen_ne_paren
    have ih := TypeExpr.equivalent_iff_normal_eq elem
    unfold TypeExpr.equivalent
    cases h : b.unparen <;> simp_all [normal]
  | .channel direction value, b => by
    rw [← b.normal_unparen]
    have hp := b.unparen_ne_paren
    have ih := TypeExpr.equivalent_iff_normal_eq value
    unfold TypeExpr.equivalent
    cases h : b.unparen <;> simp_all [normal]
  | .map key value, b => by
    rw [← b.normal_unparen]
    have hp := b.unparen_ne_paren
    have ihk := TypeExpr.equivalent_iff_normal_eq key
    have ihv := TypeExpr.equivalent_iff_normal_eq value
    unfold TypeExpr.equivalent
    cases h : b.unparen <;> simp_all [normal]
  | .function params results, b => by
    rw [← b.normal_unparen]
    have hp := b.unparen_ne_paren
    have ihp := FieldList.positionallyEquivalent_iff params
    have ihr := FieldList.positionallyEquivalent_iff results
    unfold TypeExpr.equivalent
    cases h : b.unparen <;>
      simp_all [normal, FieldList.ofTypes_inj, FieldList.normalTypes_eq]
  | .struct fields, b => by
    rw [← b.normal_unparen]
    have hp := b.unparen_ne_paren
    have ih := FieldList.nominallyEquivalent_iff fields
    unfold TypeExpr.equivalent
    cases h : b.unparen <;>
      simp_all [normal, FieldList.ofNamed_inj, FieldList.normalNamed_eq]
  | .interface members, b => by
    rw [← b.normal_unparen]
    have hp := b.unparen_ne_paren
    have ih := FieldList.nominallyEquivalent_iff members
    unfold TypeExpr.equivalent
    cases h : b.unparen <;>
      simp_all [normal, FieldList.ofNamed_inj, FieldList.normalNamed_eq]

theorem FieldList.positionallyEquivalent_iff : ∀ (fields : FieldList) (others : List TypeExpr),
    fields.positionallyEquivalent others = true ↔
      fields.normalTypes = others.map TypeExpr.normal
  | .nil, others => by cases others <;> simp [positionallyEquivalent, normalTypes]
  | .cons names type tag rest, others => by
    have iht := TypeExpr.equivalent_iff_normal_eq type
    have ihr := FieldList.positionallyEquivalent_iff rest
    simp only [positionallyEquivalent, normalTypes, Bool.and_eq_true, beq_iff_eq, List.all_eq_true]
    rw [append_eq_iff_take_drop, List.eq_replicate_iff, List.length_replicate, ← List.map_take,
      ← List.map_drop, List.length_map, ihr]
    simp only [iht, List.forall_mem_map, eq_comm (a := type.normal),
      eq_comm (a := rest.normalTypes)]

theorem FieldList.nominallyEquivalent_iff :
    ∀ (fields : FieldList) (others : List (Option String × TypeExpr)),
    fields.nominallyEquivalent others = true ↔
      fields.normalNamed = others.map fun entry => (entry.1, entry.2.normal)
  | .nil, others => by cases others <;> simp [nominallyEquivalent, normalNamed]
  | .cons names type tag rest, others => by
    have iht := TypeExpr.equivalent_iff_normal_eq type
    have ihr := FieldList.nominallyEquivalent_iff rest
    have hlen : (if names.isEmpty then [none] else names.map some).length = entryCount names := by
      cases names <;> simp [entryCount]
    simp only [nominallyEquivalent, normalNamed, Bool.and_eq_true, beq_iff_eq, List.all_eq_true]
    rw [append_eq_iff_take_drop, List.length_map, hlen, ← List.map_take, ← List.map_drop,
      map_eq_pairs_iff, ihr]
    simp only [iht, eq_comm (a := rest.normalNamed)]

end

/-! ## 4. What follows -/

namespace TypeExpr

@[simp] theorem equivalent_refl (type : TypeExpr) : type.equivalent type = true :=
  (equivalent_iff_normal_eq type type).mpr rfl

theorem equivalent_comm {a b : TypeExpr} (h : a.equivalent b = true) : b.equivalent a = true :=
  (equivalent_iff_normal_eq b a).mpr ((equivalent_iff_normal_eq a b).mp h).symm

theorem equivalent_trans {a b c : TypeExpr} (hab : a.equivalent b = true)
    (hbc : b.equivalent c = true) : a.equivalent c = true :=
  (equivalent_iff_normal_eq a c).mpr
    (((equivalent_iff_normal_eq a b).mp hab).trans ((equivalent_iff_normal_eq b c).mp hbc))

end TypeExpr

end GoStencil
