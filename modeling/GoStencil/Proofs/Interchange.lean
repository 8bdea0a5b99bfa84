import GoStencil.Complexity
import GoStencil.Proofs.Matching.Instances
import GoStencil.Proofs.Naming

/-!
# Equivalent types are interchangeable

Measuring a type, naming it and putting types in for its names are three more recursions over type
expressions. Each is blind to what equivalence ignores: it comes out the same for a type and for its
normal form. So nothing depends on which of two equivalent types was bound.

* `FieldList.weighTypes_eq`, `FieldList.niceNames_eq`: lists are measured and named by the types of
  their entries.
* `TypeExpr.weigh_normal`, `TypeExpr.niceName_normal`: the normal form has the measure and the name
  of the type.
* `TypeExpr.normal_instantiate`: it also has the same instances, up to equivalence, for
  substitutions that agree.
* `TypeExpr.interchangeable_of_equivalent`: so equivalent types do.
-/

namespace GoStencil

/-! ## 1. Lists as the types of their entries -/

namespace FieldList

theorem entryTypes_ofTypes : ∀ types : List TypeExpr, (ofTypes types).entryTypes = types
  | [] => rfl
  | type :: rest => congrArg (type :: ·) (entryTypes_ofTypes rest)

theorem entryTypes_ofNamed : ∀ entries : List (Option String × TypeExpr),
    (ofNamed entries).entryTypes = entries.map Prod.snd
  | [] => rfl
  | (none, type) :: rest => congrArg (type :: ·) (entryTypes_ofNamed rest)
  | (some _, type) :: rest => congrArg (type :: ·) (entryTypes_ofNamed rest)

theorem map_snd_normalNamed : ∀ fields : FieldList,
    fields.normalNamed.map Prod.snd = fields.normalTypes
  | .nil => rfl
  | .cons [] type _ rest => congrArg (type.normal :: ·) (map_snd_normalNamed rest)
  | .cons (name :: names) type _ rest => by
    simp [normalNamed, normalTypes, map_snd_normalNamed rest, entryCount, Function.comp_def,
      List.replicate_succ]

/-- The greatest measure of a list is that of the types of its entries. -/
theorem weighTypes_eq (weight : String → Nat) (fields : FieldList) :
    fields.weighTypes weight = (fields.entryTypes.map (TypeExpr.weigh weight)).foldr max 0 := by
  have hrepeat : ∀ measure count least : Nat,
      (List.replicate (count + 1) measure).foldr max least = max measure least := by
    intro measure count least
    induction count with
    | zero => rfl
    | succ count ih => rw [List.replicate_succ, List.foldr_cons, ih, ← Nat.max_assoc, Nat.max_self]
  fun_induction entryTypes fields with
  | case1 => rfl
  | case2 names type _ rest ih =>
    obtain ⟨count, hcount⟩ : ∃ count, entryCount names = count + 1 :=
      Nat.exists_eq_succ_of_ne_zero (by simp [entryCount])
    rw [weighTypes, List.map_append, List.map_replicate, List.foldr_append, hcount, hrepeat, ih]

/-- The pieces for a list are those for the types of its entries. -/
theorem niceNames_eq (fields : FieldList) :
    fields.niceNames = String.join (fields.entryTypes.map TypeExpr.niceName) := by
  fun_induction entryTypes fields with
  | case1 => rfl
  | case2 _ _ _ rest ih =>
    rw [niceNames, List.map_append, List.map_replicate, String.join_append, ih]

end FieldList

/-! ## 2. Measures and names -/

open TypeExpr (normal weigh) in
open FieldList (entryTypes_ofTypes entryTypes_ofNamed map_snd_normalNamed weighTypes_eq) in
mutual

/-- **The normal form of a type has its measure.** -/
theorem TypeExpr.weigh_normal (weight : String → Nat) : ∀ type : TypeExpr,
    type.normal.weigh weight = type.weigh weight
  | .name _ | .qualified .. | .interface _ => rfl
  | .pointer elem | .array _ elem | .variadic elem | .paren elem | .channel _ elem => by
    simp only [normal, weigh, TypeExpr.weigh_normal weight elem]
  | .map key value => by
    simp only [normal, weigh, TypeExpr.weigh_normal weight key, TypeExpr.weigh_normal weight value]
  | .function params results => by
    simp only [normal, weigh, weighTypes_eq, entryTypes_ofTypes,
      FieldList.map_weigh_normalTypes weight params, FieldList.map_weigh_normalTypes weight results]
  | .struct fields => by
    simp only [normal, weigh, weighTypes_eq, entryTypes_ofNamed, map_snd_normalNamed,
      FieldList.map_weigh_normalTypes weight fields]

theorem FieldList.map_weigh_normalTypes (weight : String → Nat) : ∀ fields : FieldList,
    fields.normalTypes.map (weigh weight) = fields.entryTypes.map (weigh weight)
  | .nil => rfl
  | .cons _ type _ rest => by
    simp only [FieldList.normalTypes, FieldList.entryTypes, List.map_append, List.map_replicate,
      TypeExpr.weigh_normal weight type, FieldList.map_weigh_normalTypes weight rest]

end

/-- A function without results has no piece for them. -/
theorem TypeExpr.niceName_function (params results : FieldList) :
    (TypeExpr.function params results).niceName =
      "Func" ++ String.join (params.entryTypes.map niceName) ++
        if results.entryTypes = [] then "" else "To" ++
          String.join (results.entryTypes.map niceName) := by
  cases results with
  | nil =>
    rw [niceName, FieldList.niceNames_eq, FieldList.entryTypes, if_pos rfl, String.append_empty]
  | cons names type tag rest =>
    have hsome : (FieldList.cons names type tag rest).entryTypes ≠ [] := by
      simp [FieldList.entryTypes, entryCount]
    rw [niceName, FieldList.niceNames_eq, FieldList.niceNames_eq, if_neg hsome,
      String.append_assoc]
    intro h
    cases h

open TypeExpr (normal niceName) in
open FieldList (entryTypes_ofTypes normalTypes_eq) in
mutual

/-- **The normal form of a type has its name.** -/
theorem TypeExpr.niceName_normal : ∀ type : TypeExpr, type.normal.niceName = type.niceName
  | .name _ | .qualified .. | .struct _ | .interface _ => rfl
  | .pointer elem | .array none elem | .array (some _) elem | .variadic elem | .paren elem
  | .channel _ elem => by
    simp only [normal, niceName, TypeExpr.niceName_normal elem]
  | .map key value => by
    simp only [normal, niceName, TypeExpr.niceName_normal key, TypeExpr.niceName_normal value]
  | .function params results => by
    have hnone : results.normalTypes = [] ↔ results.entryTypes = [] := by
      rw [normalTypes_eq, List.map_eq_nil_iff]
    simp only [normal, TypeExpr.niceName_function, entryTypes_ofTypes, hnone,
      FieldList.map_niceName_normalTypes params, FieldList.map_niceName_normalTypes results]

theorem FieldList.map_niceName_normalTypes : ∀ fields : FieldList,
    fields.normalTypes.map niceName = fields.entryTypes.map niceName
  | .nil => rfl
  | .cons _ type _ rest => by
    simp only [FieldList.normalTypes, FieldList.entryTypes, List.map_append, List.map_replicate,
      TypeExpr.niceName_normal type, FieldList.map_niceName_normalTypes rest]

end

/-! ## 3. Instances -/

namespace FieldList

variable {subst : Substitution}

theorem normalTypes_instantiate_ofTypes : ∀ types : List TypeExpr,
    ((ofTypes types).instantiate subst).normalTypes =
      types.map fun type => (type.instantiate subst).normal
  | [] => rfl
  | _ :: rest => congrArg _ (normalTypes_instantiate_ofTypes rest)

theorem normalNamed_instantiate_ofNamed : ∀ entries : List (Option String × TypeExpr),
    ((ofNamed entries).instantiate subst).normalNamed =
      entries.map fun entry => (entry.1, (entry.2.instantiate subst).normal)
  | [] => rfl
  | (none, _) :: rest => congrArg _ (normalNamed_instantiate_ofNamed rest)
  | (some _, _) :: rest => congrArg _ (normalNamed_instantiate_ofNamed rest)

end FieldList

/-- An interface with members is none that stands for any type. -/
theorem TypeExpr.instantiate_interface {members : FieldList} (h : members ≠ .nil)
    (subst : Substitution) :
    (TypeExpr.interface members).instantiate subst = .interface (members.instantiate subst) := by
  cases members with
  | nil => exact absurd rfl h
  | cons => rfl

/-- What agreeing substitutions bind a key to, and what stands for it otherwise, has one normal
    form. -/
theorem Substitution.Agrees.normal_getD {subst other : Substitution} (h : subst.Agrees other)
    (key : Binding) (type : TypeExpr) :
    ((subst.get? key).getD type).normal = ((other.get? key).getD type).normal := by
  cases hget : subst.get? key with
  | none => rw [h.get?_eq_none hget]
  | some bound =>
    obtain ⟨found, hfound, heq⟩ := h.exists_get? hget
    rw [hfound]
    exact (TypeExpr.equivalent_iff_normal_eq bound found).mp heq

section Agrees

variable {subst other : Substitution}

open TypeExpr (normal instantiate) in
open FieldList (normalTypes normalNamed ofTypes ofNamed normalTypes_instantiate_ofTypes
  normalNamed_instantiate_ofNamed) in
mutual

/-- **The normal form of a type has its instances**, up to equivalence, and for substitutions that
    agree. -/
theorem TypeExpr.normal_instantiate (h : subst.Agrees other) : ∀ type : TypeExpr,
    (type.instantiate subst).normal = (type.normal.instantiate other).normal
  | .name ident => h.normal_getD (.name ident) (.name ident)
  | .qualified .. => rfl
  | .pointer elem | .array _ elem | .variadic elem | .paren elem => by
    simp only [instantiate, normal, TypeExpr.normal_instantiate h elem]
  | .channel _ value => by
    simp only [instantiate, normal, normal_channelValue, TypeExpr.normal_instantiate h value]
  | .map key value => by
    simp only [instantiate, normal, TypeExpr.normal_instantiate h key,
      TypeExpr.normal_instantiate h value]
  | .function params results => by
    simp only [instantiate, normal, normalTypes_instantiate_ofTypes,
      FieldList.normalTypes_instantiate h params, FieldList.normalTypes_instantiate h results]
  | .struct fields => by
    simp only [instantiate, normal, normalNamed_instantiate_ofNamed,
      FieldList.normalNamed_instantiate h fields]
  | .interface .nil => h.normal_getD .universal .emptyInterface
  | .interface (.cons names type tag rest) => by
    have hsome : ofNamed (FieldList.cons names type tag rest).normalNamed ≠ .nil := by
      intro h
      cases names <;> cases h
    have hcons : FieldList.cons names type tag rest ≠ .nil := by
      intro h
      cases h
    rw [normal, TypeExpr.instantiate_interface hcons, TypeExpr.instantiate_interface hsome, normal,
      normal, normalNamed_instantiate_ofNamed, FieldList.normalNamed_instantiate h]

theorem FieldList.normalTypes_instantiate (h : subst.Agrees other) : ∀ fields : FieldList,
    (fields.instantiate subst).normalTypes =
      fields.normalTypes.map fun type => (type.instantiate other).normal
  | .nil => rfl
  | .cons _ type _ rest => by
    simp only [FieldList.instantiate, normalTypes, List.map_append, List.map_replicate,
      TypeExpr.normal_instantiate h type, FieldList.normalTypes_instantiate h rest]

theorem FieldList.normalNamed_instantiate (h : subst.Agrees other) : ∀ fields : FieldList,
    (fields.instantiate subst).normalNamed =
      fields.normalNamed.map fun entry => (entry.1, (entry.2.instantiate other).normal)
  | .nil => rfl
  | .cons _ type _ rest => by
    simp only [FieldList.instantiate, normalNamed, List.map_append, List.map_map,
      Function.comp_def, TypeExpr.normal_instantiate h type,
      FieldList.normalNamed_instantiate h rest]

end

end Agrees

/-! ## 4. Equivalent types -/

/-- **Equivalent types are interchangeable.** They have the same measure in every scope and the same
    name, and their instances for substitutions that bind the same keys to equivalent types are
    equivalent. -/
theorem TypeExpr.interchangeable_of_equivalent {a b : TypeExpr} (h : a.equivalent b = true) :
    (∀ scope : Scope, scope.complexity a = scope.complexity b) ∧
    a.niceName = b.niceName ∧
    ∀ subst other : Substitution, subst.Agrees other →
      (a.instantiate subst).equivalent (b.instantiate other) = true := by
  have hnormal := (equivalent_iff_normal_eq a b).mp h
  refine ⟨fun scope => ?_, ?_, fun subst other hagrees => ?_⟩
  · rw [Scope.complexity, Scope.complexity, Scope.complexityWithin, Scope.complexityWithin,
      ← a.weigh_normal, ← b.weigh_normal, hnormal]
  · rw [← a.niceName_normal, ← b.niceName_normal, hnormal]
  · rw [equivalent_iff_normal_eq, a.normal_instantiate hagrees, hnormal,
      ← b.normal_instantiate (.refl other)]

/-- `func(in, out chan T) (err interface{})`, what copies from one channel to another. -/
def copierType : TypeExpr :=
  .function (.cons ["in", "out"] (.channel .both (.name "T")) none .nil)
    (.cons ["err"] .emptyInterface none .nil)

/-- `func(chan T, chan (T)) interface{}`, the same type as someone else writes it. -/
def plainCopierType : TypeExpr :=
  .function (.cons [] (.channel .both (.name "T")) none
      (.cons [] (.channel .both (.paren (.name "T"))) none .nil))
    (.cons [] .emptyInterface none .nil)

/-- The two copiers are interchangeable, also for a channel that is written in two ways. -/
theorem TypeExpr.interchangeable_of_equivalent_copier :
    ∃ subst other : Substitution,
      copierType.equivalent plainCopierType = true ∧
      subst.Agrees other ∧
      (∀ scope : Scope, scope.complexity copierType = scope.complexity plainCopierType) ∧
      copierType.niceName = plainCopierType.niceName ∧
      (copierType.instantiate subst).render =
        "func(in, out chan (<-chan int)) (err interface\x7b\x7d)" ∧
      (plainCopierType.instantiate other).render =
        "func(chan (<-chan int), chan ((<-chan int))) interface\x7b\x7d" ∧
      (copierType.instantiate subst).equivalent (plainCopierType.instantiate other) = true := by
  have h := TypeExpr.interchangeable_of_equivalent
    (a := copierType) (b := plainCopierType) (by decide)
  have hagrees : (⟨[(.name "T", .channel .receive (.name "int"))], by decide⟩ :
      Substitution).Agrees
        ⟨[(.name "T", .paren (.channel .receive (.name "int")))], by decide⟩ := by
    intro key
    by_cases hkey : key = .name "T"
    · subst hkey
      exact .some (by decide)
    · rw [Substitution.get?_eq_none_iff.mpr (by simpa [Substitution.keys] using hkey),
        Substitution.get?_eq_none_iff.mpr (by simpa [Substitution.keys] using hkey)]
      exact .none
  exact ⟨_, _, by decide, hagrees, h.1, h.2.1, by decide, by decide, h.2.2 _ _ hagrees⟩

end GoStencil
