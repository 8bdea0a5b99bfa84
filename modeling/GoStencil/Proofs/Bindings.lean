import GoStencil.Substitution
import GoStencil.Proofs.Equivalence
import Mathlib.Order.Defs.PartialOrder

/-!
# How substitutions grow

Computations that may fail are taken apart by `bind_eq_ok` and `exists_of_mapM`.

A substitution only ever grows at its end. `subst ≤ grown` says that `grown` holds the bindings of
`subst`, unchanged and in their order, before its own.

* `bind_le`, `get?_of_le`: a bind grows a substitution, and what is bound stays bound to the same
  type.
* `exists_get?_of_bind`: after a bind the key is bound to an equivalent type.
* `GrowsBy`: the same order with a condition on every binding that is new.
-/

namespace GoStencil

/-! ## 1. Computations that may fail -/

/-- A sequence of two computations succeeds when both do. -/
theorem bind_eq_ok {ε α β : Type} {first : Except ε α} {next : α → Except ε β} {b : β} :
    first >>= next = .ok b ↔ ∃ a, first = .ok a ∧ next a = .ok b := by
  cases first with
  | error cause =>
    constructor
    · intro h
      cases h
    · rintro ⟨a, h, -⟩
      cases h
  | ok a =>
    constructor
    · intro h
      exact ⟨a, rfl, h⟩
    · rintro ⟨_, h, hb⟩
      cases h
      exact hb

/-- Every result of a traversal is the result of some step. -/
theorem exists_of_mapM {ε α β : Type} {step : α → Except ε β} {as : List α} {bs : List β}
    (h : as.mapM step = .ok bs) : ∀ b ∈ bs, ∃ a ∈ as, step a = .ok b := by
  induction as generalizing bs with
  | nil =>
    cases h
    nofun
  | cons a as ih =>
    rw [List.mapM_cons] at h
    obtain ⟨first, hfirst, h⟩ := bind_eq_ok.mp h
    obtain ⟨rest, hrest, h⟩ := bind_eq_ok.mp h
    cases h
    intro b hb
    rcases List.mem_cons.mp hb with rfl | hb
    · exact ⟨a, List.mem_cons_self, hfirst⟩
    · obtain ⟨found, hmem, hstep⟩ := ih hrest b hb
      exact ⟨found, List.mem_cons_of_mem a hmem, hstep⟩

end GoStencil

namespace GoStencil.Substitution

/-! ## 2. The order of growth -/

variable {subst grown last : Substitution} {key other : Binding} {type bound : TypeExpr}

instance : LE Substitution :=
  ⟨fun subst grown => subst.entries <+: grown.entries⟩

instance : Preorder Substitution where
  le_refl subst := List.prefix_refl subst.entries
  le_trans _ _ _ h h' := List.IsPrefix.trans h h'

theorem get?_eq_some_iff : subst.get? key = some bound ↔ (key, bound) ∈ subst.entries := by
  obtain ⟨entries, nodup⟩ := subst
  simp only [get?]
  induction entries with
  | nil => simp
  | cons entry rest ih =>
    obtain ⟨first, type⟩ := entry
    have hnodup := List.nodup_cons.mp nodup
    have hrest := ih hnodup.2
    by_cases h : key = first
    · subst h
      have hnot : (key, bound) ∉ rest := fun hmem => by
        have hkey : key ∈ rest.map Prod.fst := List.mem_map.mpr ⟨_, hmem, rfl⟩
        exact hnodup.1 hkey
      simp [hnot, eq_comm]
    · have hne : (key == first) = false := by simpa using h
      simp [List.lookup_cons, hne, h, hrest]

/-- What is bound stays bound to the same type. -/
theorem get?_of_le (h : subst ≤ grown) (hget : subst.get? key = some bound) :
    grown.get? key = some bound :=
  get?_eq_some_iff.mpr (List.IsPrefix.subset h (get?_eq_some_iff.mp hget))

theorem bindsName_of_le {ident : String} (h : subst ≤ grown) (hb : subst.bindsName ident = true) :
    grown.bindsName ident = true := by
  obtain ⟨bound, hbound⟩ := Option.isSome_iff_exists.mp hb
  exact Option.isSome_iff_exists.mpr ⟨bound, get?_of_le h hbound⟩

theorem bindsName_eq_false_iff {ident : String} :
    subst.bindsName ident = false ↔ subst.get? (.name ident) = none := by
  simp [bindsName, getName?]

/-- **A bind only adds at the end.** -/
theorem bind_le (h : subst.bind key type = .ok grown) : subst ≤ grown := by
  rcases bind_eq_ok_iff.mp h with ⟨-, he⟩ | ⟨_, -, -, rfl⟩
  · exact ⟨[(key, type)], he.symm⟩
  · exact le_refl _

/-- After a bind the key is bound to an equivalent type. -/
theorem exists_get?_of_bind (h : subst.bind key type = .ok grown) :
    ∃ bound, grown.get? key = some bound ∧ bound.equivalent type = true := by
  rcases bind_eq_ok_iff.mp h with ⟨-, he⟩ | ⟨bound, hget, heq, rfl⟩
  · exact ⟨type, get?_eq_some_iff.mpr (by simp [he]), type.equivalent_refl⟩
  · exact ⟨bound, hget, heq⟩

/-- A bind fails only because the key is bound to another type. -/
theorem eq_inconsistent_of_bind {cause : Mismatch} (h : subst.bind key type = .error cause) :
    ∃ bound, cause = .inconsistent key bound type := by
  cases hget : subst.get? key with
  | none =>
    rw [bind_of_get?_eq_none hget] at h
    cases h
  | some bound =>
    rw [bind_of_get?_eq_some hget] at h
    split at h
    · cases h
    · cases h
      exact ⟨bound, rfl⟩

/-- A fresh key is bound to the type itself. -/
theorem get?_of_bind_fresh (hfresh : subst.get? key = none)
    (h : subst.bind key type = .ok grown) : grown.get? key = some type := by
  rcases bind_eq_ok_iff.mp h with ⟨-, he⟩ | ⟨bound, hget, -, -⟩
  · exact get?_eq_some_iff.mpr (by simp [he])
  · rw [hfresh] at hget
    cases hget

/-- A bind leaves every other key alone. -/
theorem get?_of_bind_ne (hne : other ≠ key) (h : subst.bind key type = .ok grown) :
    grown.get? other = subst.get? other := by
  rcases bind_eq_ok_iff.mp h with ⟨-, he⟩ | ⟨_, -, -, rfl⟩
  · apply Option.ext
    intro bound
    rw [get?_eq_some_iff, get?_eq_some_iff, he]
    simp [hne]
  · rfl

theorem getName?_of_bind_ne {ident name : String} (hne : name ≠ ident)
    (h : subst.bind (.name ident) type = .ok grown) : grown.getName? name = subst.getName? name :=
  get?_of_bind_ne (fun e => hne (Binding.name.inj e)) h

theorem getName?_of_bind_universal {name : String} (h : subst.bind .universal type = .ok grown) :
    grown.getName? name = subst.getName? name :=
  get?_of_bind_ne (fun e => Binding.noConfusion e) h

theorem bindsName_of_bind {ident : String} (h : subst.bind (.name ident) type = .ok grown) :
    grown.bindsName ident = true := by
  obtain ⟨bound, hget, -⟩ := exists_get?_of_bind h
  exact Option.isSome_iff_exists.mpr ⟨bound, hget⟩

/-- The only type a bind can add is its own. -/
theorem mem_values_of_bind (h : subst.bind key type = .ok grown) (hmem : bound ∈ grown.values) :
    bound ∈ subst.values ∨ bound = type := by
  rcases bind_eq_ok_iff.mp h with ⟨-, he⟩ | ⟨_, -, -, rfl⟩
  · simpa [values, he] using hmem
  · exact .inl hmem

/-! ## 3. Growth by entries of one kind -/

/-- Whether a substitution has grown at its end, by entries that all have a property. -/
def GrowsBy (Q : Binding × TypeExpr → Prop) (subst grown : Substitution) : Prop :=
  ∃ added, grown.entries = subst.entries ++ added ∧ ∀ entry ∈ added, Q entry

variable {Q : Binding × TypeExpr → Prop}

namespace GrowsBy

theorem refl (subst : Substitution) : GrowsBy Q subst subst :=
  ⟨[], (List.append_nil _).symm, nofun⟩

theorem trans (h : GrowsBy Q subst grown) (h' : GrowsBy Q grown last) : GrowsBy Q subst last := by
  obtain ⟨first, hfirst, hQ⟩ := h
  obtain ⟨second, hsecond, hQ'⟩ := h'
  refine ⟨first ++ second, by rw [hsecond, hfirst, List.append_assoc], fun entry hmem => ?_⟩
  rcases List.mem_append.mp hmem with hmem | hmem
  · exact hQ entry hmem
  · exact hQ' entry hmem

theorem of_bind (hQ : Q (key, type)) (h : subst.bind key type = .ok grown) :
    GrowsBy Q subst grown := by
  rcases bind_eq_ok_iff.mp h with ⟨-, he⟩ | ⟨_, -, -, rfl⟩
  · refine ⟨[(key, type)], he, fun entry hmem => ?_⟩
    cases List.mem_singleton.mp hmem
    exact hQ
  · exact refl _

/-- What is bound in the end was bound before, or is one of the new entries. -/
theorem get?_or (h : GrowsBy Q subst grown) (hget : grown.get? key = some bound) :
    subst.get? key = some bound ∨ Q (key, bound) := by
  obtain ⟨added, he, hQ⟩ := h
  have hmem := get?_eq_some_iff.mp hget
  rw [he] at hmem
  rcases List.mem_append.mp hmem with hmem | hmem
  · exact .inl (get?_eq_some_iff.mpr hmem)
  · exact .inr (hQ _ hmem)

end GrowsBy

end GoStencil.Substitution
