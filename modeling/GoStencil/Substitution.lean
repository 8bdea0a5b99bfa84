import GoStencil.Mismatch
import GoStencil.TypeExpr.Equivalence

/-!
# Substitutions

What the types of a template are bound to, in the order of binding. A binding never changes once
it is made: binding again to an equivalent type changes nothing, and to any other type is refused.

* `Substitution.get?`, `Substitution.keys`: what a substitution holds.
* `Substitution.bind`: the only way it grows; `bind_eq_ok_iff` says when and how.
-/

namespace GoStencil

/-- Types bound under distinct keys, in the order of binding. -/
structure Substitution where
  entries : List (Binding × TypeExpr)
  nodup : (entries.map Prod.fst).Nodup
  deriving DecidableEq

namespace Substitution

/-- Nothing is bound. -/
def empty : Substitution :=
  ⟨[], List.nodup_nil⟩

/-- The keys in the order of binding. -/
def keys (subst : Substitution) : List Binding :=
  subst.entries.map Prod.fst

/-- The bound types in the order of binding. -/
def values (subst : Substitution) : List TypeExpr :=
  subst.entries.map Prod.snd

/-- What a key is bound to. -/
def get? (subst : Substitution) (key : Binding) : Option TypeExpr :=
  subst.entries.lookup key

/-- What a template type is bound to. -/
def getName? (subst : Substitution) (ident : String) : Option TypeExpr :=
  subst.get? (.name ident)

/-- What every unnamed empty interface is bound to. -/
def universal? (subst : Substitution) : Option TypeExpr :=
  subst.get? .universal

/-- Whether a template type is bound. -/
def bindsName (subst : Substitution) (ident : String) : Bool :=
  (subst.getName? ident).isSome

theorem get?_eq_none_iff {subst : Substitution} {key : Binding} :
    subst.get? key = none ↔ key ∉ subst.keys := by
  simp only [get?, keys, List.lookup_eq_none_iff, List.mem_map, bne_iff_ne]
  constructor
  · rintro h ⟨entry, hmem, rfl⟩
    exact h entry hmem rfl
  · intro h entry hmem heq
    exact h ⟨entry, hmem, heq.symm⟩

/-- The substitution with one more entry. -/
def extend (subst : Substitution) (key : Binding) (type : TypeExpr)
    (fresh : subst.get? key = none) : Substitution :=
  ⟨subst.entries ++ [(key, type)], by
    have h := get?_eq_none_iff.mp fresh
    simp only [List.map_append, List.map_cons, List.map_nil]
    refine List.nodup_append.mpr ⟨subst.nodup, by simp, ?_⟩
    intro a ha b hb
    cases List.mem_singleton.mp hb
    exact fun e => h (e ▸ ha)⟩

/-- Binds a key to a type, unless it is bound to a type that is not equivalent. -/
def bind (subst : Substitution) (key : Binding) (type : TypeExpr) :
    Except Mismatch Substitution :=
  match fresh : subst.get? key with
  | none => .ok (subst.extend key type fresh)
  | some bound =>
    if bound.equivalent type then .ok subst else .error (.inconsistent key bound type)

theorem bind_of_get?_eq_some {subst : Substitution} {key : Binding} {type bound : TypeExpr}
    (h : subst.get? key = some bound) :
    subst.bind key type =
      if bound.equivalent type then .ok subst else .error (.inconsistent key bound type) := by
  unfold bind
  split
  · rename_i h'
    cases h ▸ h'
  · rename_i h'
    cases h ▸ h'
    rfl

theorem bind_of_get?_eq_none {subst : Substitution} {key : Binding} {type : TypeExpr}
    (h : subst.get? key = none) : subst.bind key type = .ok (subst.extend key type h) := by
  unfold bind
  split
  · rfl
  · rename_i h'
    cases h ▸ h'

/-- A bind succeeds on a fresh key, which it adds at the end, and on a key that is bound to an
    equivalent type, which it leaves alone. -/
theorem bind_eq_ok_iff {subst grown : Substitution} {key : Binding} {type : TypeExpr} :
    subst.bind key type = .ok grown ↔
      (subst.get? key = none ∧ grown.entries = subst.entries ++ [(key, type)]) ∨
      (∃ bound, subst.get? key = some bound ∧ bound.equivalent type = true ∧ grown = subst) := by
  cases h : subst.get? key with
  | none =>
    rw [bind_of_get?_eq_none h]
    constructor
    · intro e
      cases e
      exact .inl ⟨rfl, rfl⟩
    · rintro (⟨-, he⟩ | ⟨_, hs, _⟩)
      · cases grown
        cases he
        rfl
      · cases hs
  | some bound =>
    rw [bind_of_get?_eq_some h]
    by_cases he : bound.equivalent type = true
    · rw [if_pos he]
      constructor
      · intro e
        cases e
        exact .inr ⟨bound, rfl, he, rfl⟩
      · rintro (⟨hn, -⟩ | ⟨_, -, -, e⟩)
        · cases hn
        · rw [e]
    · rw [if_neg he]
      constructor
      · intro e
        cases e
      · rintro (⟨hn, -⟩ | ⟨_, hs, hb, -⟩)
        · cases hn
        · cases hs
          exact absurd hb he

/-- The bindings in order. -/
def render (subst : Substitution) : String :=
  ", ".intercalate (subst.entries.map fun entry =>
    entry.1.render ++ " -> " ++ entry.2.render)

end Substitution

end GoStencil
