import GoStencil.Proofs.Instantiation
import GoStencil.Proofs.Matching.Stability
import GoStencil.Specialization
import Mathlib.Order.MinMax

/-!
# What a type mentions

A type mentions names and packages, and all that its parts mention.

* `TypeExpr.names_eq_flatMap`, `TypeExpr.qualifiers_eq_flatMap`: a composite type mentions what its
  parts mention.
* `TypeExpr.mem_qualifiers_of_occursIn`: a type mentions the package of each qualified name in it.
* `TypeExpr.MentionsOnly`, `TypeExpr.Avoids`: whether all that a type mentions has a property, and
  whether it does not mention a name at all. Its parts inherit that, so a match of such types never
  meets another name.
* `TypeExpr.weigh_le_weigh`, `TypeExpr.weigh_congr`: the measure of a type grows with the weights of
  what it mentions outside interfaces, and depends on nothing else.
-/

namespace GoStencil

/-! ## 1. Names and packages -/

theorem FieldList.typeNames_eq_flatMap (fields : FieldList) :
    fields.typeNames = fields.types.flatMap TypeExpr.names := by
  fun_induction FieldList.types fields with
  | case1 => rfl
  | case2 _ _ _ rest ih => rw [typeNames, List.flatMap_cons, ih]

theorem FieldList.qualifiers_eq_flatMap (fields : FieldList) :
    fields.qualifiers = fields.types.flatMap TypeExpr.qualifiers := by
  fun_induction FieldList.types fields with
  | case1 => rfl
  | case2 _ _ _ rest ih => rw [qualifiers, List.flatMap_cons, ih]

namespace TypeExpr

theorem names_eq_flatMap {type : TypeExpr} (h : ∀ ident, type ≠ .name ident) :
    type.names = type.parts.flatMap names := by
  cases type with
  | name ident => exact absurd rfl (h ident)
  | qualified => rfl
  | pointer | array | «variadic» | paren | channel => exact (List.append_nil _).symm
  | map key value =>
    show key.names ++ value.names = key.names ++ (value.names ++ [])
    rw [List.append_nil]
  | function params results =>
    rw [names, parts, List.flatMap_append, params.typeNames_eq_flatMap,
      results.typeNames_eq_flatMap]
  | struct fields => exact fields.typeNames_eq_flatMap
  | interface members => exact members.typeNames_eq_flatMap

theorem qualifiers_eq_flatMap {type : TypeExpr}
    (h : ∀ package ident, type ≠ .qualified package ident) :
    type.qualifiers = type.parts.flatMap qualifiers := by
  cases type with
  | name => rfl
  | qualified package ident => exact absurd rfl (h package ident)
  | pointer | array | «variadic» | paren | channel => exact (List.append_nil _).symm
  | map key value =>
    show key.qualifiers ++ value.qualifiers = key.qualifiers ++ (value.qualifiers ++ [])
    rw [List.append_nil]
  | function params results =>
    rw [qualifiers, parts, List.flatMap_append, params.qualifiers_eq_flatMap,
      results.qualifiers_eq_flatMap]
  | struct fields => exact fields.qualifiers_eq_flatMap
  | interface members => exact members.qualifiers_eq_flatMap

variable {whole type part : TypeExpr} {ident : String}

theorem mem_names_of_mem_parts (hpart : part ∈ type.parts) (h : ident ∈ part.names) :
    ident ∈ type.names := by
  rw [names_eq_flatMap]
  · exact List.mem_flatMap.mpr ⟨part, hpart, h⟩
  · rintro _ rfl
    cases hpart

theorem mem_qualifiers_of_mem_parts (hpart : part ∈ type.parts) (h : ident ∈ part.qualifiers) :
    ident ∈ type.qualifiers := by
  rw [qualifiers_eq_flatMap]
  · exact List.mem_flatMap.mpr ⟨part, hpart, h⟩
  · rintro _ _ rfl
    cases hpart

/-- **A type mentions the package of each qualified name in it.** -/
theorem mem_qualifiers_of_occursIn {package : String}
    (h : whole.OccursIn (.qualified package ident)) : package ∈ whole.qualifiers := by
  have hall : ∀ {type : TypeExpr}, whole.OccursIn type → package ∈ type.qualifiers →
      package ∈ whole.qualifiers := by
    intro type h
    induction h with
    | whole => exact id
    | part _ hpart ih => exact fun hmem => ih (mem_qualifiers_of_mem_parts hpart hmem)
  exact hall h List.mem_cons_self

/-! ## 2. What a type does not mention -/

/-- Whether a property holds of all names that a type mentions, as types and as packages. -/
structure MentionsOnly (P : String → Prop) (type : TypeExpr) : Prop where
  names : ∀ ident ∈ type.names, P ident
  qualifiers : ∀ ident ∈ type.qualifiers, P ident

theorem hereditary_mentionsOnly (P : String → Prop) : Hereditary (MentionsOnly P) where
  package h := by
    refine ⟨fun ident hmem => ?_, nofun⟩
    cases List.mem_singleton.mp hmem
    exact h.qualifiers _ List.mem_cons_self
  part h hpart :=
    ⟨fun ident hmem => h.names ident (mem_names_of_mem_parts hpart hmem),
      fun ident hmem => h.qualifiers ident (mem_qualifiers_of_mem_parts hpart hmem)⟩

/-- Whether a type mentions a name neither as a type nor as a package. -/
structure Avoids (type : TypeExpr) (name : String) : Prop where
  names : name ∉ type.names
  qualifiers : name ∉ type.qualifiers

theorem avoids_iff_mentionsOnly {name : String} :
    type.Avoids name ↔ type.MentionsOnly (· ≠ name) where
  mp h := ⟨List.forall_mem_ne'.mpr h.names, List.forall_mem_ne'.mpr h.qualifiers⟩
  mpr h := ⟨List.forall_mem_ne'.mp h.names, List.forall_mem_ne'.mp h.qualifiers⟩

theorem hereditary_avoids (name : String) : Hereditary (·.Avoids name) := by
  simp only [avoids_iff_mentionsOnly]
  exact hereditary_mentionsOnly _

theorem Avoids.ne {name : String} (h : (TypeExpr.name ident).Avoids name) : ident ≠ name := by
  rintro rfl
  exact h.names List.mem_cons_self

end TypeExpr

/-! ## 3. Measures -/

mutual

/-- The names and packages that count where a type is measured: all but those in interfaces. -/
def TypeExpr.weighed : TypeExpr → List String
  | .name ident => [ident]
  | .qualified package _ => [package]
  | .pointer elem | .array _ elem | .variadic elem | .paren elem | .channel _ elem => elem.weighed
  | .map key value => key.weighed ++ value.weighed
  | .function params results => params.weighed ++ results.weighed
  | .struct fields => fields.weighed
  | .interface _ => []

/-- The names and packages that count where the entries are measured. -/
def FieldList.weighed : FieldList → List String
  | .nil => []
  | .cons _ type _ rest => type.weighed ++ rest.weighed

end

mutual

theorem TypeExpr.mentions_of_mem_weighed {ident : String} : ∀ type : TypeExpr,
    ident ∈ type.weighed → ident ∈ type.names ∨ ident ∈ type.qualifiers
  | .name _, h => .inl h
  | .qualified .., h => .inr h
  | .pointer elem, h | .array _ elem, h | .variadic elem, h | .paren elem, h
  | .channel _ elem, h => TypeExpr.mentions_of_mem_weighed elem h
  | .map key value, h => by
    rcases List.mem_append.mp h with h | h
    · exact (TypeExpr.mentions_of_mem_weighed key h).imp (List.mem_append_left _)
        (List.mem_append_left _)
    · exact (TypeExpr.mentions_of_mem_weighed value h).imp (List.mem_append_right _)
        (List.mem_append_right _)
  | .function params results, h => by
    rcases List.mem_append.mp h with h | h
    · exact (FieldList.mentions_of_mem_weighed params h).imp (List.mem_append_left _)
        (List.mem_append_left _)
    · exact (FieldList.mentions_of_mem_weighed results h).imp (List.mem_append_right _)
        (List.mem_append_right _)
  | .struct fields, h => FieldList.mentions_of_mem_weighed fields h

theorem FieldList.mentions_of_mem_weighed {ident : String} : ∀ fields : FieldList,
    ident ∈ fields.weighed → ident ∈ fields.typeNames ∨ ident ∈ fields.qualifiers
  | .cons _ type _ rest, h => by
    rcases List.mem_append.mp h with h | h
    · exact (TypeExpr.mentions_of_mem_weighed type h).imp (List.mem_append_left _)
        (List.mem_append_left _)
    · exact (FieldList.mentions_of_mem_weighed rest h).imp (List.mem_append_right _)
        (List.mem_append_right _)

end

theorem TypeExpr.Avoids.ne_of_mem_weighed {type : TypeExpr} {name : String}
    (h : type.Avoids name) : ∀ ident ∈ type.weighed, ident ≠ name := by
  rintro ident hmem rfl
  exact (type.mentions_of_mem_weighed hmem).elim h.names h.qualifiers

mutual

/-- A type measures no more with weights that are no greater. -/
theorem TypeExpr.weigh_le_weigh {weight weight' : String → Nat} : ∀ (type : TypeExpr),
    (∀ ident ∈ type.weighed, weight ident ≤ weight' ident) →
      type.weigh weight ≤ type.weigh weight'
  | .name ident, h => h ident List.mem_cons_self
  | .qualified package _, h => h package List.mem_cons_self
  | .pointer elem, h | .paren elem, h | .variadic elem, h => TypeExpr.weigh_le_weigh elem h
  | .array _ elem, h | .channel _ elem, h => Nat.succ_le_succ (TypeExpr.weigh_le_weigh elem h)
  | .map key value, h => by
    obtain ⟨hkey, hvalue⟩ := List.forall_mem_append.mp h
    exact Nat.succ_le_succ
      (max_le_max (TypeExpr.weigh_le_weigh key hkey) (TypeExpr.weigh_le_weigh value hvalue))
  | .function params results, h => by
    obtain ⟨hparams, hresults⟩ := List.forall_mem_append.mp h
    exact Nat.succ_le_succ (max_le_max (FieldList.weighTypes_le_weighTypes params hparams)
      (FieldList.weighTypes_le_weighTypes results hresults))
  | .struct fields, h => Nat.succ_le_succ (FieldList.weighTypes_le_weighTypes fields h)
  | .interface _, _ => Nat.le_refl 1

theorem FieldList.weighTypes_le_weighTypes {weight weight' : String → Nat} :
    ∀ (fields : FieldList), (∀ ident ∈ fields.weighed, weight ident ≤ weight' ident) →
      fields.weighTypes weight ≤ fields.weighTypes weight'
  | .nil, _ => Nat.le_refl 0
  | .cons _ type _ rest, h => by
    obtain ⟨htype, hrest⟩ := List.forall_mem_append.mp h
    exact max_le_max (TypeExpr.weigh_le_weigh type htype)
      (FieldList.weighTypes_le_weighTypes rest hrest)

end

/-- Weights that agree on what counts in a type measure it alike. -/
theorem TypeExpr.weigh_congr {weight weight' : String → Nat} (type : TypeExpr)
    (h : ∀ ident ∈ type.weighed, weight ident = weight' ident) :
    type.weigh weight = type.weigh weight' :=
  Nat.le_antisymm (type.weigh_le_weigh fun ident hmem => Nat.le_of_eq (h ident hmem))
    (type.weigh_le_weigh fun ident hmem => Nat.le_of_eq (h ident hmem).symm)

end GoStencil
