import GoStencil.Proofs.Naming
import GoStencil.Proofs.SourceFile.Readable
import GoStencil.Proofs.Specialization.Leaks

/-!
# Types with everything bound put in

A provider may offer the type of a last parameter for a template type, and any type for one that
the template embeds. A type of the language stays one if neither ends up where it cannot stand.

* `TypeExpr.fits`: what may be wrong with a type once everything bound is put in.
* `TypeExpr.IsWellFormed.instantiate`: nothing else is wrong with it.
-/

namespace GoStencil

open Grammar

/-! ## 1. Types -/

/-- Whether the type takes any number of arguments. -/
def TypeExpr.isVariadic : TypeExpr → Bool
  | .variadic _ => true
  | _ => false

/-- Whether a list is a single unnamed entry that takes any number of arguments. -/
def FieldList.isLoneVariadic : FieldList → Bool
  | .cons [] (.variadic _) _ .nil => true
  | _ => false

/-- Whether a field of a struct does not take any number of arguments, and can be embedded if it
    has no name. -/
def Field.fits (field : Field) : Bool :=
  !field.type.isVariadic && (!field.names.isEmpty || field.type.isEmbeddable)

/-- Whether a member of an interface is a method or can be embedded. -/
def Field.fitsMember (member : Field) : Bool :=
  !member.names.isEmpty || member.type.isTypeName

/-- Whether the parts of a type can stand where they do, as far as they are not wrong themselves:
    only parameters take any number of arguments, and only names are embedded. -/
def TypeExpr.fits : TypeExpr → Bool
  | .name _ | .qualified _ _ => true
  | .pointer elem => !elem.isVariadic
  | .array _ elem => !elem.isVariadic
  | .variadic elem => !elem.isVariadic
  | .paren inner => !inner.isVariadic
  | .channel _ value => !value.isVariadic
  | .map key value => !key.isVariadic && !value.isVariadic
  | .function _ results => !results.isLoneVariadic
  | .struct fields => fields.toList.all Field.fits
  | .interface members => members.toList.all Field.fitsMember

theorem TypeExpr.IsBindable.isWellFormed {type : TypeExpr} (h : type.IsBindable)
    (hvariadic : (!type.isVariadic) = true) : type.IsWellFormed := by
  cases type with
  | «variadic» => cases hvariadic
  | _ => exact h

theorem FieldList.toList_instantiate (subst : Substitution) (fields : FieldList) :
    (fields.instantiate subst).toList =
      fields.toList.map fun field => { field with type := field.type.instantiate subst } := by
  fun_induction FieldList.toList fields with
  | case1 => rfl
  | case2 names type tag rest ih =>
    rw [FieldList.instantiate, FieldList.toList, ih]
    rfl

/-- What holds of the entries of a list with their types instantiated holds of the list. -/
theorem FieldList.forall_instantiate {subst : Substitution} {fields : FieldList}
    {P : Field → Prop} : (∀ field ∈ (fields.instantiate subst).toList, P field) ↔
      ∀ field ∈ fields.toList, P { field with type := field.type.instantiate subst } := by
  rw [FieldList.toList_instantiate]
  exact List.forall_mem_map

theorem FieldList.AreParameters.instantiate {subst : Substitution} {fields : FieldList}
    (h : fields.AreParameters) : (fields.instantiate subst).AreParameters where
  names := FieldList.forall_instantiate.mpr h.names
  tags := FieldList.forall_instantiate.mpr h.tags
  uniform := h.uniform.imp FieldList.forall_instantiate.mpr FieldList.forall_instantiate.mpr

theorem FieldList.isLoneVariadic_eq_false_iff {results : FieldList} :
    (!results.isLoneVariadic) = true ↔
      ∀ elem tag, results ≠ .cons [] (.variadic elem) tag .nil := by
  constructor
  · rintro h elem tag rfl
    cases h
  · intro h
    unfold isLoneVariadic
    split
    · exact absurd rfl (h _ _)
    · rfl

/-- An entry of a list of parameters still can be one, if its element is no list itself. -/
theorem TypeExpr.isBindable_of_variadicElem {subst : Substitution} {type : TypeExpr}
    (h : (type.variadicElem.instantiate subst).everywhere fits = true →
      (type.variadicElem.instantiate subst).IsBindable)
    (hfits : (type.instantiate subst).everywhere fits = true) :
    (type.instantiate subst).IsBindable := by
  cases type with
  | «variadic» elem =>
    obtain ⟨hvariadic, helem⟩ := Bool.and_eq_true_iff.mp hfits
    exact (h helem).isWellFormed hvariadic
  | _ => exact h hfits

/-- The value of a channel still can be one, with or without parentheses. -/
theorem isWellFormed_channelValue {before after : TypeExpr}
    (h : after.everywhere TypeExpr.fits = true → after.IsBindable)
    (hvariadic : (!(channelValue before after).isVariadic) = true)
    (hfits : (channelValue before after).everywhere TypeExpr.fits = true) :
    (channelValue before after).IsWellFormed := by
  unfold channelValue at hvariadic hfits ⊢
  by_cases hparens : (after.isChannel && !before.isChannel) = true
  · rw [if_pos hparens] at hfits ⊢
    obtain ⟨hvariadic, hafter⟩ := Bool.and_eq_true_iff.mp hfits
    exact .paren ((h hafter).isWellFormed hvariadic)
  · rw [if_neg hparens] at hvariadic hfits ⊢
    exact (h hfits).isWellFormed hvariadic

theorem TypeExpr.not_isVariadic_of_isTypeName {type : TypeExpr} (h : type.isTypeName = true) :
    (!type.isVariadic) = true := by
  cases type with
  | «variadic» => cases h
  | _ => rfl

section Instantiation

variable {subst : Substitution} (hsubst : ∀ value ∈ subst.values, value.IsBindable)

include hsubst

theorem isBindable_getD {key : Binding} {type : TypeExpr} (h : type.IsWellFormed) :
    ((subst.get? key).getD type).IsBindable := by
  cases hget : subst.get? key with
  | none => exact h.isBindable
  | some value => exact hsubst value (Substitution.mem_values_of_get? hget)

/-- **Types of the language stay so**, or become those of last parameters, when everything bound is
    put in and fits. -/
theorem TypeExpr.IsWellFormed.instantiate {type : TypeExpr} (h : type.IsWellFormed)
    (hfits : (type.instantiate subst).everywhere fits = true) :
    (type.instantiate subst).IsBindable := by
  induction h with
  | name hident => exact isBindable_getD hsubst (.name hident)
  | qualified hpackage hident => exact .qualified hpackage hident
  | pointer _ ih =>
    obtain ⟨hvariadic, helem⟩ := Bool.and_eq_true_iff.mp hfits
    exact .pointer ((ih helem).isWellFormed hvariadic)
  | slice _ ih =>
    obtain ⟨hvariadic, helem⟩ := Bool.and_eq_true_iff.mp hfits
    exact .slice ((ih helem).isWellFormed hvariadic)
  | array hlength _ ih =>
    obtain ⟨hvariadic, helem⟩ := Bool.and_eq_true_iff.mp hfits
    exact .array hlength ((ih helem).isWellFormed hvariadic)
  | paren _ ih =>
    obtain ⟨hvariadic, hinner⟩ := Bool.and_eq_true_iff.mp hfits
    exact .paren ((ih hinner).isWellFormed hvariadic)
  | channel _ ih =>
    obtain ⟨hvariadic, hvalue⟩ := Bool.and_eq_true_iff.mp hfits
    exact .channel (isWellFormed_channelValue ih hvariadic hvalue)
  | map _ _ ihkey ihvalue =>
    obtain ⟨hboth, hparts⟩ := Bool.and_eq_true_iff.mp hfits
    obtain ⟨hkeyVariadic, hvalueVariadic⟩ := Bool.and_eq_true_iff.mp hboth
    obtain ⟨hkey, hvalue⟩ := Bool.and_eq_true_iff.mp hparts
    exact .map ((ihkey hkey).isWellFormed hkeyVariadic)
      ((ihvalue hvalue).isWellFormed hvalueVariadic)
  | function hparams hresults _ _ _ ihparams ihresults =>
    obtain ⟨hlone, hparts⟩ := Bool.and_eq_true_iff.mp hfits
    obtain ⟨hinParams, hinResults⟩ := Bool.and_eq_true_iff.mp hparts
    have hinParams := FieldList.forall_instantiate.mp (FieldList.everywhere_iff.mp hinParams)
    have hinResults := FieldList.forall_instantiate.mp (FieldList.everywhere_iff.mp hinResults)
    exact .function hparams.instantiate hresults.instantiate
      (FieldList.isLoneVariadic_eq_false_iff.mp hlone)
      (FieldList.forall_instantiate.mpr fun field hmem =>
        isBindable_of_variadicElem (ihparams field hmem) (hinParams field hmem))
      (FieldList.forall_instantiate.mpr fun field hmem =>
        isBindable_of_variadicElem (ihresults field hmem) (hinResults field hmem))
  | struct hfields _ ih =>
    obtain ⟨hall, hparts⟩ := Bool.and_eq_true_iff.mp hfits
    have hall := FieldList.forall_instantiate.mp (List.all_eq_true.mp hall)
    have hparts := FieldList.forall_instantiate.mp (FieldList.everywhere_iff.mp hparts)
    refine .struct (FieldList.forall_instantiate.mpr fun field hmem => ?_)
      (FieldList.forall_instantiate.mpr fun field hmem => ?_)
    · refine ⟨(hfields field hmem).names, fun hnames => ?_, (hfields field hmem).tag⟩
      obtain ⟨-, hembedded⟩ := Bool.and_eq_true_iff.mp (hall field hmem)
      dsimp only at hnames hembedded
      rw [hnames] at hembedded
      exact hembedded
    · obtain ⟨hvariadic, -⟩ := Bool.and_eq_true_iff.mp (hall field hmem)
      exact (ih field hmem (hparts field hmem)).isWellFormed hvariadic
  | @interface members hmembers htypes ih =>
    cases members with
    | nil => exact isBindable_getD hsubst (.interface hmembers htypes)
    | cons names type tag rest =>
      obtain ⟨hall, hparts⟩ := Bool.and_eq_true_iff.mp hfits
      have hall := FieldList.forall_instantiate.mp (List.all_eq_true.mp hall)
      have hparts := FieldList.forall_instantiate.mp (FieldList.everywhere_iff.mp hparts)
      refine .interface (FieldList.forall_instantiate.mpr fun member hmem => ?_)
        (FieldList.forall_instantiate.mpr fun member hmem => ?_)
      · obtain ⟨hshape, htag⟩ := hmembers member hmem
        refine ⟨?_, htag⟩
        rcases hshape with ⟨name, params, results, hnames, hname, htype⟩ | ⟨hnames, -⟩
        · refine .inl ⟨name, params.instantiate subst, results.instantiate subst, hnames, hname, ?_⟩
          rw [htype, TypeExpr.instantiate]
        · have hembedded := hall member hmem
          rw [Field.fitsMember, hnames] at hembedded
          exact .inr ⟨hnames, hembedded⟩
      · have hmember := ih member hmem (hparts member hmem)
        rcases (hmembers member hmem).shape with ⟨_, _, _, -, -, htype⟩ | ⟨hnames, -⟩
        · refine hmember.isWellFormed ?_
          rw [htype, TypeExpr.instantiate]
          rfl
        · have hembedded := hall member hmem
          rw [Field.fitsMember, hnames] at hembedded
          exact hmember.isWellFormed (not_isVariadic_of_isTypeName hembedded)

end Instantiation

end GoStencil
