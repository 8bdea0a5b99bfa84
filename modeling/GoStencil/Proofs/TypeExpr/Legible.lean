import GoStencil.Proofs.TypeExpr.Instances
import GoStencil.Proofs.TypeExpr.Pieces

/-!
# Instances that are read again

Names, tags and lengths stay as they are when types are put in for names, so an instance is spelled
like the type it is made of. What can be wrong with it is where its parts stand.

* `TypeExpr.isLegible`: no part of a type stands where it is taken for something else.
* `TypeExpr.isReadable_of_isLegible`: a type that is spelled as such and legible is read again.
* `Substitution.maintains_isSpelled`: instances are spelled as such.
* `TypeExpr.isReadable_instantiate`: so a legible instance of a type that has been parsed is read
  again, if everything put in has been parsed.
-/

namespace GoStencil

open Grammar

/-! ## 1. Legible types -/

/-- Whether the parts of a type are told apart when they are read where they stand, as far as they
    are not wrong themselves: they fit, a length is one, and no entry is taken for a name of the one
    after it. -/
def TypeExpr.isLegible (type : TypeExpr) : Bool :=
  type.fits &&
    match type with
    | .array (some length) _ => isArrayLength length
    | .function params results => keepsNames params.toList && keepsNames results.toList
    | _ => true

theorem TypeExpr.variadicElem_eq_self {type : TypeExpr} (h : (!type.isVariadic) = true) :
    type.variadicElem = type := by
  cases type with
  | «variadic» => cases h
  | _ => rfl

theorem FieldList.areEntries_of {fields : FieldList} (h : fields.toList.all Field.isEntry = true)
    (hkeeps : keepsNames fields.toList = true) : fields.AreEntries where
  names field hmem :=
    (Bool.and_eq_true_iff.mp (Field.isSpelled_of_isEntry (List.all_eq_true.mp h field hmem))).1
  tags field hmem :=
    Option.isNone_iff_eq_none.mp (Bool.and_eq_true_iff.mp (List.all_eq_true.mp h field hmem)).2
  keeps := hkeeps

theorem Field.isStructField_of {field : Field} (hspelled : field.isSpelled = true)
    (hfits : field.fits = true) : field.IsStructField := by
  obtain ⟨hnames, htag⟩ := Bool.and_eq_true_iff.mp hspelled
  obtain ⟨-, hembedded⟩ := Bool.and_eq_true_iff.mp hfits
  refine ⟨hnames, fun hnone => ?_, Option.all_eq_true _ _ |>.mp htag⟩
  rwa [hnone] at hembedded

theorem Field.isMember_of {member : Field}
    (hspelled : (member.isEntry && member.isMethodIfNamed) = true)
    (hfits : member.fitsMember = true) : member.IsMember := by
  obtain ⟨hentry, hmethod⟩ := Bool.and_eq_true_iff.mp hspelled
  obtain ⟨hwords, htag⟩ := Bool.and_eq_true_iff.mp hentry
  obtain ⟨hnames, -⟩ := Bool.and_eq_true_iff.mp hwords
  refine ⟨?_, Option.isNone_iff_eq_none.mp htag⟩
  obtain ⟨names, type, tag⟩ := member
  match names, type with
  | [], type => exact .inr ⟨rfl, hfits⟩
  | [name], .function params results =>
    exact .inl ⟨name, params, results, rfl, (Bool.and_eq_true_iff.mp hnames).1, rfl⟩
  | _ :: _ :: _, _ => cases hmethod

/-- What is embedded in an interface takes no number of arguments, nor does a method. -/
theorem Field.IsMember.not_isVariadic {member : Field} (h : member.IsMember) :
    (!member.type.isVariadic) = true := by
  rcases h.shape with ⟨_, _, _, -, -, htype⟩ | ⟨-, hname⟩
  · rw [htype]
    rfl
  · exact TypeExpr.not_isVariadic_of_isTypeName hname

theorem TypeExpr.isReadable_of_variadicElem {type : TypeExpr} (h : type.variadicElem.IsReadable)
    (hvariadic : (!type.isVariadic) = true) : type.IsReadable := by
  rwa [variadicElem_eq_self hvariadic] at h

theorem TypeExpr.fits_of_isLegible {type : TypeExpr} (h : type.isLegible = true) :
    type.fits = true :=
  (Bool.and_eq_true_iff.mp h).1

section Reading

variable {p : String → Bool}

mutual

/-- **A type that is spelled as such and legible is read again**, or is the type of a parameter that
    takes any number of such a type. -/
theorem TypeExpr.isReadable_of_isLegible : ∀ type : TypeExpr,
    type.everywhere (TypeExpr.isSpelled p) = true → type.everywhere TypeExpr.isLegible = true →
    type.variadicElem.IsReadable
  | .name _, h, _ => .name h
  | .qualified _ _, h, _ =>
    .qualified (Bool.and_eq_true_iff.mp h).1 (Bool.and_eq_true_iff.mp h).2
  | .pointer elem, h, hlegible | .variadic elem, h, hlegible | .array none elem, h, hlegible
  | .array (some length) elem, h, hlegible | .paren elem, h, hlegible
  | .channel _ elem, h, hlegible => by
    obtain ⟨hself, hinside⟩ := Bool.and_eq_true_iff.mp hlegible
    have ih := TypeExpr.isReadable_of_isLegible elem (Bool.and_eq_true_iff.mp h).2 hinside
    have helem := TypeExpr.isReadable_of_variadicElem ih (TypeExpr.fits_of_isLegible hself)
    first
    | exact helem
    | exact .pointer helem
    | exact .slice helem
    | exact .array (Bool.and_eq_true_iff.mp hself).2 helem
    | exact .paren helem
    | exact .channel helem
  | .map key value, h, hlegible => by
    obtain ⟨hself, hinside⟩ := Bool.and_eq_true_iff.mp hlegible
    obtain ⟨hkeySpelled, hvalueSpelled⟩ := Bool.and_eq_true_iff.mp (Bool.and_eq_true_iff.mp h).2
    obtain ⟨hkeyLegible, hvalueLegible⟩ := Bool.and_eq_true_iff.mp hinside
    obtain ⟨hkey, hvalue⟩ := Bool.and_eq_true_iff.mp (TypeExpr.fits_of_isLegible hself)
    have ihkey := TypeExpr.isReadable_of_isLegible key hkeySpelled hkeyLegible
    have ihvalue := TypeExpr.isReadable_of_isLegible value hvalueSpelled hvalueLegible
    exact .map (TypeExpr.isReadable_of_variadicElem ihkey hkey)
      (TypeExpr.isReadable_of_variadicElem ihvalue hvalue)
  | .function params results, h, hlegible => by
    obtain ⟨hself, hinside⟩ := Bool.and_eq_true_iff.mp hlegible
    obtain ⟨hwords, hspelled⟩ := Bool.and_eq_true_iff.mp h
    obtain ⟨hsingle, hkeeps⟩ := Bool.and_eq_true_iff.mp hself
    simp only [TypeExpr.isSpelled, Bool.and_eq_true] at hwords hspelled hinside hkeeps
    exact .function (FieldList.areEntries_of hwords.1 hkeeps.1)
      (FieldList.areEntries_of hwords.2 hkeeps.2) (FieldList.isLoneVariadic_eq_false_iff.mp hsingle)
      (FieldList.isReadable_of_isLegible params hspelled.1 hinside.1)
      (FieldList.isReadable_of_isLegible results hspelled.2 hinside.2)
  | .struct fields, h, hlegible => by
    obtain ⟨hself, hinside⟩ := Bool.and_eq_true_iff.mp hlegible
    obtain ⟨hwords, hspelled⟩ := Bool.and_eq_true_iff.mp h
    have hfits := List.all_eq_true.mp (TypeExpr.fits_of_isLegible hself)
    refine .struct (fun field hmem => Field.isStructField_of
      (List.all_eq_true.mp hwords field hmem) (hfits field hmem)) fun field hmem => ?_
    exact TypeExpr.isReadable_of_variadicElem
      (FieldList.isReadable_of_isLegible fields hspelled hinside field hmem)
      (Bool.and_eq_true_iff.mp (hfits field hmem)).1
  | .interface members, h, hlegible => by
    obtain ⟨hself, hinside⟩ := Bool.and_eq_true_iff.mp hlegible
    obtain ⟨hwords, hspelled⟩ := Bool.and_eq_true_iff.mp h
    have hmembers : ∀ member ∈ members.toList, member.IsMember := fun member hmem =>
      Field.isMember_of (List.all_eq_true.mp hwords member hmem)
        (List.all_eq_true.mp (TypeExpr.fits_of_isLegible hself) member hmem)
    refine .interface hmembers fun member hmem => ?_
    exact TypeExpr.isReadable_of_variadicElem
      (FieldList.isReadable_of_isLegible members hspelled hinside member hmem)
      (hmembers member hmem).not_isVariadic

theorem FieldList.isReadable_of_isLegible : ∀ fields : FieldList,
    fields.everywhere (TypeExpr.isSpelled p) = true →
    fields.everywhere TypeExpr.isLegible = true →
    ∀ field ∈ fields.toList, field.type.variadicElem.IsReadable
  | .nil, _, _ => by simp [FieldList.toList]
  | .cons names type tag rest, h, hlegible => by
    obtain ⟨htype, hrest⟩ := Bool.and_eq_true_iff.mp h
    obtain ⟨htypeLegible, hrestLegible⟩ := Bool.and_eq_true_iff.mp hlegible
    rw [FieldList.toList, List.forall_mem_cons]
    exact ⟨TypeExpr.isReadable_of_isLegible type htype htypeLegible,
      FieldList.isReadable_of_isLegible rest hrest hrestLegible⟩

end

end Reading

/-! ## 2. Instances -/

section Instances

variable {p : String → Bool} {subst : Substitution}

theorem FieldList.all_toList_instantiate {q : Field → Bool} {fields : FieldList}
    (hq : ∀ field ∈ fields.toList, q field = true →
      q { field with type := field.type.instantiate subst } = true)
    (h : fields.toList.all q = true) : (fields.instantiate subst).toList.all q = true :=
  List.all_eq_true.mpr (FieldList.forall_instantiate.mpr fun field hmem =>
    hq field hmem (List.all_eq_true.mp h field hmem))

theorem Field.isMethodIfNamed_instantiate {field : Field} (h : field.isMethodIfNamed = true) :
    ({ field with type := field.type.instantiate subst } : Field).isMethodIfNamed = true := by
  obtain ⟨names, type, tag⟩ := field
  match names, type with
  | [], _ => rfl
  | [_], .function _ _ => rfl

/-- **Instances are spelled as such**, if everything put in is. -/
theorem Substitution.maintains_isSpelled
    (hvalues : ∀ value ∈ subst.values, value.everywhere (TypeExpr.isSpelled p) = true) :
    subst.Maintains (TypeExpr.isSpelled p) fun _ => true where
  values := hvalues
  parens _ _ := rfl
  node type hplace h _ := by
    cases type with
    | name => cases hplace
    | qualified | pointer | «variadic» | paren | channel | map => exact h
    | array length elem => cases length <;> exact h
    | function params results =>
      obtain ⟨hparams, hresults⟩ := Bool.and_eq_true_iff.mp h
      exact Bool.and_eq_true_iff.mpr
        ⟨FieldList.all_toList_instantiate (fun _ _ hentry => hentry) hparams,
          FieldList.all_toList_instantiate (fun _ _ hentry => hentry) hresults⟩
    | struct fields => exact FieldList.all_toList_instantiate (fun _ _ hspelled => hspelled) h
    | interface members =>
      cases members with
      | nil => cases hplace
      | cons names type tag rest =>
        refine FieldList.all_toList_instantiate (fun member _ hmember => ?_) h
        obtain ⟨hentry, hmethod⟩ := Bool.and_eq_true_iff.mp hmember
        exact Bool.and_eq_true_iff.mpr ⟨hentry, Field.isMethodIfNamed_instantiate hmethod⟩

mutual

/-- What holds of all types holds everywhere in a type. -/
theorem TypeExpr.everywhere_of_forall {q : TypeExpr → Bool} (hq : ∀ type, q type = true) :
    ∀ type : TypeExpr, type.everywhere q = true
  | .name _ | .qualified _ _ => hq _
  | .pointer elem | .array _ elem | .variadic elem | .paren elem | .channel _ elem =>
    Bool.and_eq_true_iff.mpr ⟨hq _, TypeExpr.everywhere_of_forall hq elem⟩
  | .map key value => Bool.and_eq_true_iff.mpr ⟨hq _, Bool.and_eq_true_iff.mpr
      ⟨TypeExpr.everywhere_of_forall hq key, TypeExpr.everywhere_of_forall hq value⟩⟩
  | .function params results => Bool.and_eq_true_iff.mpr ⟨hq _, Bool.and_eq_true_iff.mpr
      ⟨FieldList.everywhere_of_forall hq params, FieldList.everywhere_of_forall hq results⟩⟩
  | .struct fields | .interface fields =>
    Bool.and_eq_true_iff.mpr ⟨hq _, FieldList.everywhere_of_forall hq fields⟩

theorem FieldList.everywhere_of_forall {q : TypeExpr → Bool} (hq : ∀ type, q type = true) :
    ∀ fields : FieldList, fields.everywhere q = true
  | .nil => rfl
  | .cons _ type _ rest => Bool.and_eq_true_iff.mpr
      ⟨TypeExpr.everywhere_of_forall hq type, FieldList.everywhere_of_forall hq rest⟩

end

/-- Every type has lengths of the kind that all lengths are of. -/
theorem TypeExpr.everywhere_hasLength (type : TypeExpr) :
    type.everywhere (TypeExpr.hasLength fun _ => true) = true := by
  refine everywhere_of_forall (fun type => ?_) type
  fun_cases TypeExpr.hasLength (fun _ => true) type <;> rfl

section Parsed

variable (hvalues : ∀ value ∈ subst.values, value.variadicElem.IsParsed)

include hvalues

/-- **A legible instance of a type that has been parsed is read again**, if everything put in has
    been parsed. -/
theorem TypeExpr.isReadable_instantiate {type : TypeExpr} (h : type.variadicElem.IsParsed)
    (hlegible : (type.instantiate subst).everywhere TypeExpr.isLegible = true) :
    (type.instantiate subst).variadicElem.IsReadable := by
  have hmaintains := Substitution.maintains_isSpelled fun value hmem =>
    everywhere_isSpelled_of_variadicElem (hvalues value hmem) value.everywhere_hasLength
  have hspelled := everywhere_instantiate hmaintains type
    (everywhere_isSpelled_of_variadicElem h type.everywhere_hasLength)
    (everywhere_of_forall (fun _ => rfl) type)
  exact isReadable_of_isLegible _ hspelled hlegible

/-- So are the entries of an instantiated list, if none is taken for a name of the one after it. -/
theorem FieldList.IsParsed.isReadable_instantiate {fields : FieldList} (h : fields.IsParsed)
    (hkeeps : keepsNames (fields.instantiate subst).toList = true)
    (hlegible : (fields.instantiate subst).everywhere TypeExpr.isLegible = true) :
    (fields.instantiate subst).IsReadable where
  shape :=
    { names := FieldList.forall_instantiate.mpr h.shape.names
      tags := FieldList.forall_instantiate.mpr h.shape.tags
      keeps := hkeeps }
  types := FieldList.forall_instantiate.mpr fun field hmem =>
    TypeExpr.isReadable_instantiate hvalues (h.types field hmem)
      (FieldList.forall_instantiate.mp (FieldList.everywhere_iff.mp hlegible) field hmem)

end Parsed

end Instances

end GoStencil
