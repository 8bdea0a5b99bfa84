import GoStencil.Instantiation
import GoStencil.Proofs.Matching.Equivalents

/-!
# A match gives the candidate back

Matching and instantiating are two passes over a type. They agree: the template type with everything
that a match has bound put in for the names is the candidate, up to equivalence and to the
directions of channels, which a match compares loosely.

* `TypeExpr.undirected`: the type with every channel bidirectional.
* `TypeExpr.isReadInFull`: the forms that a match compares with the whole candidate.
* `Matcher.Settled.restores`: settled goals give their candidates back.
* `Matcher.equivalent_instantiate_of_unify`: so does a match without a provider.
-/

namespace GoStencil

/-! ## 1. Types up to the directions of channels -/

mutual

/-- The type with every channel bidirectional. -/
def TypeExpr.undirected : TypeExpr → TypeExpr
  | .name ident => .name ident
  | .qualified package ident => .qualified package ident
  | .pointer elem => .pointer elem.undirected
  | .array length elem => .array length elem.undirected
  | .variadic elem => .variadic elem.undirected
  | .paren inner => .paren inner.undirected
  | .channel _ value => .channel .both value.undirected
  | .map key value => .map key.undirected value.undirected
  | .function params results => .function params.undirected results.undirected
  | .struct fields => .struct fields.undirected
  | .interface members => .interface members.undirected

/-- The list with every channel in its types bidirectional. -/
def FieldList.undirected : FieldList → FieldList
  | .nil => .nil
  | .cons names type tag rest => .cons names type.undirected tag rest.undirected

end

theorem FieldList.undirected_ofTypes : ∀ types : List TypeExpr,
    (ofTypes types).undirected = ofTypes (types.map TypeExpr.undirected)
  | [] => rfl
  | _ :: rest => by simp [ofTypes, undirected, undirected_ofTypes rest]

theorem FieldList.undirected_ofNamed : ∀ entries : List (Option String × TypeExpr),
    (ofNamed entries).undirected =
      ofNamed (entries.map fun entry => (entry.1, entry.2.undirected))
  | [] => rfl
  | _ :: rest => by simp [ofNamed, undirected, undirected_ofNamed rest]

open TypeExpr (normal undirected) in
mutual

/-- What equivalence ignores has nothing to do with the directions of channels. -/
theorem TypeExpr.normal_undirected : ∀ type : TypeExpr,
    type.undirected.normal = type.normal.undirected
  | .name _ | .qualified .. => rfl
  | .pointer elem | .array _ elem | .variadic elem | .paren elem | .channel _ elem => by
    simp [undirected, normal, TypeExpr.normal_undirected elem]
  | .map key value => by
    simp [undirected, normal, TypeExpr.normal_undirected key, TypeExpr.normal_undirected value]
  | .function params results => by
    simp [undirected, normal, FieldList.undirected_ofTypes, FieldList.normalTypes_undirected params,
      FieldList.normalTypes_undirected results]
  | .struct fields | .interface fields => by
    simp [undirected, normal, FieldList.undirected_ofNamed, FieldList.normalNamed_undirected fields]

theorem FieldList.normalTypes_undirected : ∀ fields : FieldList,
    fields.undirected.normalTypes = fields.normalTypes.map undirected
  | .nil => rfl
  | .cons _ type _ rest => by
    simp [FieldList.undirected, FieldList.normalTypes, TypeExpr.normal_undirected type,
      FieldList.normalTypes_undirected rest]

theorem FieldList.normalNamed_undirected : ∀ fields : FieldList,
    fields.undirected.normalNamed =
      fields.normalNamed.map fun entry => (entry.1, entry.2.undirected)
  | .nil => rfl
  | .cons names type _ rest => by
    simp [FieldList.undirected, FieldList.normalNamed, TypeExpr.normal_undirected type,
      FieldList.normalNamed_undirected rest, Function.comp_def]

end

theorem normal_channelValue (before after : TypeExpr) :
    (channelValue before after).normal = after.normal := by
  unfold channelValue
  split <;> rfl

theorem FieldList.entryTypes_instantiate (subst : Substitution) : ∀ fields : FieldList,
    (fields.instantiate subst).entryTypes = fields.entryTypes.map (TypeExpr.instantiate subst)
  | .nil => rfl
  | .cons _ _ _ rest => by simp [instantiate, entryTypes, entryTypes_instantiate subst rest]

/-! ## 2. Goals whose candidates are given back -/

/-- Whether a match compares all of a type with its candidate: a struct is found in a larger one,
    and a variadic type takes other types too. A package is compared only if it means nothing to the
    match. -/
def TypeExpr.isReadInFull (known : String → Bool) : TypeExpr → Bool
  | .struct _ | .variadic _ => false
  | .qualified package _ => !known package
  | _ => true

/-- Whether a type under a substitution is another one, up to equivalence and to the directions of
    channels. -/
def TypeExpr.Restores (subst : Substitution) (template candidate : TypeExpr) : Prop :=
  (template.instantiate subst).normal.undirected = candidate.normal.undirected

namespace Matcher

variable {scope : Scope} {subst last later : Substitution}

/-- What a match adds means something to it from the beginning. -/
theorem Extends.knows_eq {matcher : Matcher} (h : matcher.Extends subst later) :
    matcher.knows later = matcher.knows subst := by
  funext ident
  rw [Bool.eq_iff_iff, knows, knows, Bool.or_eq_true, Bool.or_eq_true]
  constructor
  · intro hknows
    rcases hknows with hbound | hdecl
    · obtain ⟨bound, hget⟩ := Option.isSome_iff_exists.mp hbound
      rcases h.canBind _ bound hget with hget | hkey
      · exact .inl (Option.isSome_of_eq_some hget)
      · exact .inr hkey
    · exact .inr hdecl
  · intro hknows
    rcases hknows with hbound | hdecl
    · obtain ⟨bound, hget⟩ := Option.isSome_iff_exists.mp hbound
      exact .inl (Option.isSome_of_eq_some (h.get? _ bound hget))
    · exact .inr hdecl

end Matcher

/-- Whether the candidate of a goal is given back, if all of the template type is compared with
    it. -/
def Goal.Restores (known : String → Bool) (subst : Substitution) : Goal → Prop
  | .pair template candidate =>
    template.everywhere (TypeExpr.isReadInFull known) = true → template.Restores subst candidate
  | .fail _ => False

namespace Goal

variable {known : String → Bool} {subst : Substitution}

/-- The types of two lists whose goals are restored are given back one by one. -/
theorem restores_ofEntries {template candidate : FieldList}
    (h : ∀ goal ∈ ofEntries template candidate, goal.Restores known subst)
    (hread : template.everywhere (TypeExpr.isReadInFull known) = true) :
    (template.instantiate subst).normalTypes.map TypeExpr.undirected =
      candidate.normalTypes.map TypeExpr.undirected := by
  unfold ofEntries at h
  split at h
  · rename_i hlength
    rw [FieldList.normalTypes_eq, FieldList.normalTypes_eq, FieldList.entryTypes_instantiate,
      List.map_map, List.map_map, List.map_map, ← List.forall₂_eq_eq_eq,
      List.forall₂_map_left_iff, List.forall₂_map_right_iff, List.forall₂_iff_zip]
    refine ⟨by simpa using hlength, fun {type found} hmem => ?_⟩
    refine h (.pair type found) (List.mem_map.mpr ⟨_, hmem, rfl⟩) ?_
    exact FieldList.everywhere_of_mem_types hread
      (FieldList.mem_types_of_mem_entryTypes (List.of_mem_zip hmem).1)
  · exact (h _ List.mem_cons_self).elim

/-- **A type is given back when its parts are.** -/
theorem restores_of_parts {template candidate : TypeExpr}
    (hknown : ∀ ident, known ident = false → subst.getName? ident = none)
    (hread : template.everywhere (TypeExpr.isReadInFull known) = true)
    (hstructural : template.isStructural = true)
    (h : ∀ goal ∈ ofParts template candidate, goal.Restores known subst) :
    template.Restores subst candidate := by
  have part : ∀ {type found : TypeExpr}, .pair type found ∈ ofParts template candidate →
      type.everywhere (TypeExpr.isReadInFull known) = true → type.Restores subst found :=
    fun hmem hall => h _ hmem hall
  show (template.instantiate subst).normal.undirected = candidate.normal.undirected
  cases template with
  | name | paren | «variadic» => cases hstructural
  | struct fields => cases hread
  | qualified package ident =>
    cases candidate with
    | qualified foundPackage found =>
      have hsame : ident = found := by
        by_contra hne
        exact h (.fail (.identifier ident (.name found))) (by simp [ofParts, hne])
      -- the package stands for itself, as it means nothing to the match
      have hpackage := part List.mem_cons_self rfl
      have hfree : subst.getName? package = none :=
        hknown package (by simpa [TypeExpr.everywhere, TypeExpr.isReadInFull] using hread)
      simp only [TypeExpr.Restores, TypeExpr.instantiate, hfree, Option.getD_none, TypeExpr.normal,
        TypeExpr.undirected, TypeExpr.name.injEq] at hpackage
      rw [hsame, hpackage]
      rfl
    | _ => exact (h _ List.mem_cons_self).elim
  | pointer elem =>
    cases candidate with
    | pointer found =>
      exact congrArg TypeExpr.pointer
        (part List.mem_cons_self (Bool.and_eq_true_iff.mp hread).2)
    | _ => exact (h _ List.mem_cons_self).elim
  | array length elem =>
    cases candidate with
    | array foundLength found =>
      by_cases hlength : length = foundLength
      · rw [ofParts, if_pos hlength] at part
        rw [hlength]
        exact congrArg (TypeExpr.array foundLength)
          (part List.mem_cons_self (Bool.and_eq_true_iff.mp hread).2)
      · rw [ofParts, if_neg hlength] at h
        exact (h _ List.mem_cons_self).elim
    | _ => exact (h _ List.mem_cons_self).elim
  | channel direction value =>
    cases candidate with
    | channel foundDirection found =>
      by_cases hdirection :
          direction ≠ .both ∧ foundDirection ≠ .both ∧ direction ≠ foundDirection
      · rw [ofParts, if_pos hdirection] at h
        exact (h _ List.mem_cons_self).elim
      · rw [ofParts, if_neg hdirection] at part
        have hvalue := part List.mem_cons_self (Bool.and_eq_true_iff.mp hread).2
        rw [TypeExpr.Restores, ← normal_channelValue value] at hvalue
        exact congrArg (TypeExpr.channel .both) hvalue
    | _ => exact (h _ List.mem_cons_self).elim
  | map key value =>
    cases candidate with
    | map foundKey found =>
      simp only [TypeExpr.everywhere, Bool.and_eq_true] at hread
      exact congrArg₂ TypeExpr.map (part List.mem_cons_self hread.2.1)
        (part (List.mem_cons_of_mem _ List.mem_cons_self) hread.2.2)
    | _ => exact (h _ List.mem_cons_self).elim
  | function params results =>
    cases candidate with
    | function foundParams foundResults =>
      simp only [TypeExpr.everywhere, Bool.and_eq_true] at hread
      have hparams := restores_ofEntries
        (fun goal hmem => h goal (List.mem_append_left _ hmem)) hread.2.1
      have hresults := restores_ofEntries
        (fun goal hmem => h goal (List.mem_append_right _ hmem)) hread.2.2
      simp only [TypeExpr.instantiate, TypeExpr.normal, TypeExpr.undirected,
        FieldList.undirected_ofTypes, hparams, hresults]
    | _ => exact (h _ List.mem_cons_self).elim
  | interface members =>
    cases members with
    | nil => cases hstructural
    | cons => exact (h _ List.mem_cons_self).elim

end Goal

/-! ## 3. Matches -/

namespace Matcher

/-- **A settled goal gives its candidate back**: every name in it is bound to what it was matched
    with, up to equivalence. -/
theorem Settled.restores {goal : Goal} (h : (⟨scope, none⟩ : Matcher).Settled last goal) :
    goal.Restores ((⟨scope, none⟩ : Matcher).knows last) last := by
  have bound : ∀ {type candidate : TypeExpr}, type.equivalent candidate = true →
      type.normal.undirected = candidate.normal.undirected := fun heq =>
    congrArg TypeExpr.undirected ((TypeExpr.equivalent_iff_normal_eq ..).mp heq)
  induction h with
  | @step template candidate goals hstep hgoals ih =>
    intro hread
    show (template.instantiate last).normal.undirected = candidate.normal.undirected
    cases hstep with
    | bound hget heq =>
      rw [TypeExpr.instantiate, hget]
      exact bound heq
    | undeclared hfree =>
      rw [TypeExpr.instantiate, Substitution.getName?, Substitution.bindsName_eq_false_iff.mp hfree]
      rfl
    | placeholder hfree _ _ hbind | declared hfree _ _ hbind =>
      rw [Substitution.bindsName_of_bind hbind] at hfree
      cases hfree
    | paren inner =>
      exact ih _ List.mem_cons_self (Bool.and_eq_true_iff.mp hread).2
    | «variadic» elem => cases hread
    | universal hbind =>
      obtain ⟨type, hget, heq⟩ := Substitution.exists_get?_of_bind hbind
      rw [TypeExpr.emptyInterface, TypeExpr.instantiate, Substitution.universal?, hget]
      exact bound heq
    | parts hs =>
      have hfree : ∀ ident, (⟨scope, none⟩ : Matcher).knows last ident = false →
          last.getName? ident = none := by
        intro ident hident
        rw [knows, Bool.or_eq_false_iff] at hident
        exact Substitution.bindsName_eq_false_iff.mp hident.1
      have hparts := Goal.restores_of_parts hfree hread hs ih
      rw [TypeExpr.Restores] at hparts
      rw [hparts]
      exact congrArg TypeExpr.undirected candidate.normal_unparen

/-- **A match without a provider gives the candidate back**: the template type under the resulting
    substitution is the candidate, up to equivalence and to the directions of channels. -/
theorem equivalent_instantiate_of_unify {template candidate : TypeExpr}
    (h : (⟨scope, none⟩ : Matcher).unify template candidate subst = .ok last)
    (hread : template.everywhere
      (TypeExpr.isReadInFull ((⟨scope, none⟩ : Matcher).knows subst)) = true) :
    (template.instantiate last).undirected.equivalent candidate.undirected = true := by
  have run := run_of_unify h
  rw [← run.extends.knows_eq] at hread
  have hrestores := (run.settled (.refl _ last) _ List.mem_cons_self).restores hread
  rw [TypeExpr.equivalent_iff_normal_eq, TypeExpr.normal_undirected, TypeExpr.normal_undirected]
  exact hrestores

/-- A template with items of any type. -/
def itemScope : Scope :=
  ⟨"pipe", [], [⟨"Item", false, .emptyInterface, ⟨0, 0⟩⟩]⟩

/-- `func(in chan Item) <-chan Item`, a stage of a pipeline. -/
def itemStage : TypeExpr :=
  .function (.cons ["in"] (.channel .both (.name "Item")) none .nil)
    (.cons [] (.channel .receive (.name "Item")) none .nil)

/-- `func(<-chan (<-chan int)) chan <-chan int`, where the items are channels. -/
def channelStage : TypeExpr :=
  .function (.cons [] (.channel .receive (.paren (.channel .receive (.name "int")))) none .nil)
    (.cons [] (.channel .both (.channel .receive (.name "int"))) none .nil)

/-- The stage is given back, but for the directions in which it uses its own channels. -/
theorem equivalent_instantiate_of_unify_stage :
    ∃ last,
      (⟨itemScope, none⟩ : Matcher).unify itemStage channelStage .empty = .ok last ∧
      (itemStage.instantiate last).render =
        "func(in chan (<-chan int)) <-chan (<-chan int)" ∧
      (itemStage.instantiate last).undirected.equivalent channelStage.undirected = true := by
  have h : (⟨itemScope, none⟩ : Matcher).unify itemStage channelStage .empty =
      .ok ⟨[(.name "Item", .paren (.channel .receive (.name "int")))], by decide⟩ := rfl
  exact ⟨_, h, by decide, equivalent_instantiate_of_unify h (by decide)⟩

end Matcher

end GoStencil
