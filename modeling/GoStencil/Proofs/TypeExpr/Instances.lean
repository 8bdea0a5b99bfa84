import GoStencil.Proofs.Composition
import GoStencil.Proofs.Specialization.WellFormed
import GoStencil.Proofs.TypeExpr.ParsedLists
import GoStencil.Proofs.TypeExpr.RoundTrip

/-!
# Instances are read back

A type is written as what it is if it is a type of the language and its text neither adds nor loses
parentheses. Putting such types in for names keeps this in every place, as a channel that is put
into a channel gets the parentheses that keep its direction. Only a struct or an interface cannot
have any type embedded.

* `TypeExpr.IsFaithful`: the types that are written as what they are.
* `TypeExpr.everywhere_instantiate`: what holds everywhere in a type and in what is put in holds
  everywhere in the instance, if it holds of each instantiated node.
* `TypeExpr.IsFaithful.instantiate`: instances are written as what they are.
* `TypeExpr.parse_render_instantiate`: so they are read back.
-/

namespace GoStencil

/-! ## 1. Types that are written as what they are -/

/-- Whether a tree is a type of the language whose text has just its parentheses. -/
structure TypeExpr.IsFaithful (type : TypeExpr) : Prop where
  wellFormed : type.IsWellFormed
  adds : type.everywhere TypeExpr.addsNoParens = true
  loses : type.everywhere TypeExpr.losesNoParens = true

/-- Whether the type is in parentheses. -/
def TypeExpr.isParen : TypeExpr → Bool
  | .paren _ => true
  | _ => false

/-- Whether a type is written as what it is and not in parentheses, so that it can be put in for a
    name anywhere. It does not take any number of arguments either, as a type of the language. -/
structure TypeExpr.IsValue (type : TypeExpr) : Prop where
  faithful : type.IsFaithful
  bare : type.isParen = false

/-- Whether a substitution binds no name that a struct or an interface embeds. -/
def TypeExpr.keepsEmbedded (subst : Substitution) : TypeExpr → Bool
  | .struct fields | .interface fields =>
    fields.toList.all fun field =>
      !field.names.isEmpty || field.type.names.all (!subst.bindsName ·)
  | _ => true

/-! ## 2. Properties of all nodes -/

/-- Whether something can be put in for the type itself. -/
def TypeExpr.isPlace : TypeExpr → Bool
  | .name _ | .interface .nil => true
  | _ => false

section Everywhere

variable {p kept : TypeExpr → Bool} {subst : Substitution}

/-- What holds of all values and of a type holds of what stands for it. -/
theorem Substitution.holds_getD {P : TypeExpr → Prop} (hvalues : ∀ value ∈ subst.values, P value)
    {key : Binding} {type : TypeExpr} (h : P type) : P ((subst.get? key).getD type) := by
  cases hget : subst.get? key with
  | none => exact h
  | some value => exact hvalues value (mem_values_of_get? hget)

theorem everywhere_channelValue
    (hparen : ∀ direction value, p (.paren (.channel direction value)) = true)
    {before after : TypeExpr} (h : after.everywhere p = true) :
    (channelValue before after).everywhere p = true := by
  unfold channelValue
  split
  · rename_i hchannel
    cases after with
    | channel direction value => exact Bool.and_eq_true_iff.mpr ⟨hparen direction value, h⟩
    | _ => cases hchannel
  · exact h

/-- Whether a substitution maintains a property of types: all values have it in all their parts, it
    is not lost when everything bound is put into a type that also has a second property, and the
    parentheses around a channel that is put in have it. -/
structure Substitution.Maintains (subst : Substitution) (p kept : TypeExpr → Bool) : Prop where
  values : ∀ value ∈ subst.values, value.everywhere p = true
  node : ∀ type, type.isPlace = false → p type = true → kept type = true →
    p (type.instantiate subst) = true
  parens : ∀ direction value, p (.paren (.channel direction value)) = true

mutual

/-- **What a substitution maintains holds everywhere in the instance** of a type that it holds
    everywhere in. -/
theorem TypeExpr.everywhere_instantiate (hsubst : subst.Maintains p kept) : ∀ type : TypeExpr,
    type.everywhere p = true → type.everywhere kept = true →
      (type.instantiate subst).everywhere p = true
  | .name _, h, _ => Substitution.holds_getD hsubst.values h
  | .qualified _ _, h, _ => h
  | .pointer elem, h, hkept | .array _ elem, h, hkept | .variadic elem, h, hkept
  | .paren elem, h, hkept => by
    obtain ⟨hself, helem⟩ := Bool.and_eq_true_iff.mp h
    obtain ⟨hkeptSelf, hkeptElem⟩ := Bool.and_eq_true_iff.mp hkept
    exact Bool.and_eq_true_iff.mpr ⟨hsubst.node _ rfl hself hkeptSelf,
      TypeExpr.everywhere_instantiate hsubst elem helem hkeptElem⟩
  | .channel _ value, h, hkept => by
    obtain ⟨hself, hvalue⟩ := Bool.and_eq_true_iff.mp h
    obtain ⟨hkeptSelf, hkeptValue⟩ := Bool.and_eq_true_iff.mp hkept
    exact Bool.and_eq_true_iff.mpr ⟨hsubst.node _ rfl hself hkeptSelf,
      everywhere_channelValue hsubst.parens
        (TypeExpr.everywhere_instantiate hsubst value hvalue hkeptValue)⟩
  | .map key value, h, hkept => by
    obtain ⟨hself, hboth⟩ := Bool.and_eq_true_iff.mp h
    obtain ⟨hkeptSelf, hkeptBoth⟩ := Bool.and_eq_true_iff.mp hkept
    obtain ⟨hkey, hvalue⟩ := Bool.and_eq_true_iff.mp hboth
    obtain ⟨hkeptKey, hkeptValue⟩ := Bool.and_eq_true_iff.mp hkeptBoth
    exact Bool.and_eq_true_iff.mpr ⟨hsubst.node _ rfl hself hkeptSelf, Bool.and_eq_true_iff.mpr
      ⟨TypeExpr.everywhere_instantiate hsubst key hkey hkeptKey,
        TypeExpr.everywhere_instantiate hsubst value hvalue hkeptValue⟩⟩
  | .function params results, h, hkept => by
    obtain ⟨hself, hboth⟩ := Bool.and_eq_true_iff.mp h
    obtain ⟨hkeptSelf, hkeptBoth⟩ := Bool.and_eq_true_iff.mp hkept
    obtain ⟨hparams, hresults⟩ := Bool.and_eq_true_iff.mp hboth
    obtain ⟨hkeptParams, hkeptResults⟩ := Bool.and_eq_true_iff.mp hkeptBoth
    exact Bool.and_eq_true_iff.mpr ⟨hsubst.node _ rfl hself hkeptSelf, Bool.and_eq_true_iff.mpr
      ⟨FieldList.everywhere_instantiate hsubst params hparams hkeptParams,
        FieldList.everywhere_instantiate hsubst results hresults hkeptResults⟩⟩
  | .struct fields, h, hkept => by
    obtain ⟨hself, hfields⟩ := Bool.and_eq_true_iff.mp h
    obtain ⟨hkeptSelf, hkeptFields⟩ := Bool.and_eq_true_iff.mp hkept
    exact Bool.and_eq_true_iff.mpr ⟨hsubst.node _ rfl hself hkeptSelf,
      FieldList.everywhere_instantiate hsubst fields hfields hkeptFields⟩
  | .interface .nil, h, _ => Substitution.holds_getD hsubst.values h
  | .interface (.cons names type tag rest), h, hkept => by
    obtain ⟨hself, hmembers⟩ := Bool.and_eq_true_iff.mp h
    obtain ⟨hkeptSelf, hkeptMembers⟩ := Bool.and_eq_true_iff.mp hkept
    exact Bool.and_eq_true_iff.mpr ⟨hsubst.node _ rfl hself hkeptSelf,
      FieldList.everywhere_instantiate hsubst (.cons names type tag rest) hmembers hkeptMembers⟩

theorem FieldList.everywhere_instantiate (hsubst : subst.Maintains p kept) :
    ∀ fields : FieldList, fields.everywhere p = true →
    fields.everywhere kept = true → (fields.instantiate subst).everywhere p = true
  | .nil, _, _ => rfl
  | .cons _ type _ rest, h, hkept => by
    obtain ⟨htype, hrest⟩ := Bool.and_eq_true_iff.mp h
    obtain ⟨hkeptType, hkeptRest⟩ := Bool.and_eq_true_iff.mp hkept
    exact Bool.and_eq_true_iff.mpr ⟨TypeExpr.everywhere_instantiate hsubst type htype hkeptType,
      FieldList.everywhere_instantiate hsubst rest hrest hkeptRest⟩

end

end Everywhere

/-! ## 3. What may be wrong with an instance -/

theorem TypeExpr.IsWellFormed.not_isVariadic {type : TypeExpr} (h : type.IsWellFormed) :
    (!type.isVariadic) = true := by
  cases h <;> rfl

/-- **Nothing is wrong with a type of the language** as it is. -/
theorem TypeExpr.IsWellFormed.everywhere_fits {type : TypeExpr} (h : type.IsWellFormed) :
    type.everywhere fits = true := by
  have entries : ∀ {fields : FieldList},
      (∀ field ∈ fields.toList, field.type.variadicElem.IsWellFormed) →
      (∀ field ∈ fields.toList, field.type.variadicElem.everywhere fits = true) →
      fields.everywhere fits = true := by
    intro fields hentries hparts
    refine FieldList.everywhere_iff.mpr fun field hmem => ?_
    have hentry := hentries field hmem
    have hpart := hparts field hmem
    generalize field.type = type at hentry hpart
    cases type with
    | «variadic» elem => exact Bool.and_eq_true_iff.mpr ⟨hentry.not_isVariadic, hpart⟩
    | _ => exact hpart
  induction h with
  | name | qualified => rfl
  | pointer h ih | slice h ih | array _ h ih | paren h ih | channel h ih =>
    exact Bool.and_eq_true_iff.mpr ⟨h.not_isVariadic, ih⟩
  | map hkey hvalue ihkey ihvalue =>
    exact Bool.and_eq_true_iff.mpr
      ⟨Bool.and_eq_true_iff.mpr ⟨hkey.not_isVariadic, hvalue.not_isVariadic⟩,
        Bool.and_eq_true_iff.mpr ⟨ihkey, ihvalue⟩⟩
  | function _ _ hsingle hparams hresults ihparams ihresults =>
    exact Bool.and_eq_true_iff.mpr ⟨FieldList.isLoneVariadic_eq_false_iff.mpr hsingle,
      Bool.and_eq_true_iff.mpr ⟨entries hparams ihparams, entries hresults ihresults⟩⟩
  | struct hfields htypes ih =>
    refine Bool.and_eq_true_iff.mpr ⟨List.all_eq_true.mpr fun field hmem => ?_,
      FieldList.everywhere_iff.mpr ih⟩
    refine Bool.and_eq_true_iff.mpr ⟨(htypes field hmem).not_isVariadic, ?_⟩
    by_cases hnames : field.names = []
    · rw [(hfields field hmem).embedded hnames, Bool.or_true]
    · rw [List.isEmpty_eq_false_iff.mpr hnames]
      rfl
  | interface hmembers _ ih =>
    refine Bool.and_eq_true_iff.mpr ⟨List.all_eq_true.mpr fun field hmem => ?_,
      FieldList.everywhere_iff.mpr ih⟩
    rcases (hmembers field hmem).shape with ⟨name, _, _, hnames, -, -⟩ | ⟨-, hname⟩
    · rw [Field.fitsMember, hnames]
      rfl
    · rw [Field.fitsMember, hname, Bool.or_true]

section Values

variable {subst : Substitution} {type : TypeExpr}

/-- What is embedded stays as it is when its name is not bound. -/
theorem TypeExpr.instantiate_of_isEmbeddable (h : type.isEmbeddable = true)
    (hfree : type.names.all (!subst.bindsName ·) = true) : type.instantiate subst = type := by
  refine instantiate_eq_self type ⟨fun ident hmem => ?_, .inr ?_⟩
  · simpa using List.all_eq_true.mp hfree ident hmem
  · cases type with
    | name | qualified => rfl
    | pointer elem =>
      cases elem with
      | name | qualified => rfl
      | _ => cases h
    | _ => cases h

/-- Only a value can come out as something that the type was not. -/
theorem TypeExpr.mem_values_or_same_head (subst : Substitution) (type : TypeExpr) :
    type.instantiate subst ∈ subst.values ∨
      ((type.instantiate subst).isVariadic = type.isVariadic ∧
        (type.instantiate subst).isParen = type.isParen) := by
  have bound : ∀ {key : Binding} {other : TypeExpr},
      (subst.get? key).getD other ∈ subst.values ∨
        (((subst.get? key).getD other).isVariadic = other.isVariadic ∧
          ((subst.get? key).getD other).isParen = other.isParen) := by
    intro key other
    cases hget : subst.get? key with
    | none => exact .inr ⟨rfl, rfl⟩
    | some value => exact .inl (Substitution.mem_values_of_get? hget)
  cases type with
  | name => exact bound
  | interface members =>
    cases members with
    | nil => exact bound
    | cons => exact .inr ⟨rfl, rfl⟩
  | _ => exact .inr ⟨rfl, rfl⟩

/-- A single entry comes from a single entry. -/
theorem FieldList.exists_of_instantiate_eq {fields : FieldList} {made : TypeExpr}
    {tag : Option String} (h : fields.instantiate subst = .cons [] made tag .nil) :
    ∃ type, fields = .cons [] type tag .nil ∧ type.instantiate subst = made := by
  cases fields with
  | nil => cases h
  | cons names type _ rest =>
    cases rest with
    | cons => cases h
    | nil =>
      cases h
      exact ⟨type, rfl, rfl⟩

theorem isVariadic_channelValue (before after : TypeExpr) :
    (channelValue before after).isVariadic = after.isVariadic := by
  unfold channelValue
  split
  · rename_i hchannel
    cases after with
    | channel => rfl
    | _ => cases hchannel
  · rfl

variable (hvalues : ∀ value ∈ subst.values, value.IsValue)

include hvalues

theorem TypeExpr.not_isVariadic_instantiate (h : (!type.isVariadic) = true) :
    (!(type.instantiate subst).isVariadic) = true := by
  rcases type.mem_values_or_same_head subst with hmem | ⟨hsame, -⟩
  · exact (hvalues _ hmem).faithful.wellFormed.not_isVariadic
  · rwa [hsame]

theorem TypeExpr.isParen_of_instantiate (h : (type.instantiate subst).isParen = true) :
    type.isParen = true := by
  rcases type.mem_values_or_same_head subst with hmem | ⟨-, hsame⟩
  · rw [(hvalues _ hmem).bare] at h
    cases h
  · rwa [← hsame]

/-- **Nothing is wrong with a node** when everything bound is put in, if nothing was before and what
    it embeds stays as it is. -/
theorem TypeExpr.fits_instantiate (type : TypeExpr) (hplace : type.isPlace = false)
    (h : type.fits = true) (hkeeps : type.keepsEmbedded subst = true) :
    (type.instantiate subst).fits = true := by
  cases type with
  | name => cases hplace
  | qualified => rfl
  | pointer | array | «variadic» | paren => exact not_isVariadic_instantiate hvalues h
  | channel direction value =>
    rw [instantiate, fits, isVariadic_channelValue]
    exact not_isVariadic_instantiate hvalues h
  | map key value =>
    obtain ⟨hkey, hvalue⟩ := Bool.and_eq_true_iff.mp h
    exact Bool.and_eq_true_iff.mpr
      ⟨not_isVariadic_instantiate hvalues hkey, not_isVariadic_instantiate hvalues hvalue⟩
  | function params results =>
    refine FieldList.isLoneVariadic_eq_false_iff.mpr fun elem tag heq => ?_
    obtain ⟨type, rfl, htype⟩ := FieldList.exists_of_instantiate_eq heq
    have hvariadic : (!type.isVariadic) = true := by
      cases type with
      | «variadic» => cases h
      | _ => rfl
    have hfits := not_isVariadic_instantiate hvalues hvariadic
    rw [htype] at hfits
    cases hfits
  | struct fields =>
    have hfields := List.all_eq_true.mp h
    have hembedded := List.all_eq_true.mp hkeeps
    refine List.all_eq_true.mpr (FieldList.forall_instantiate.mpr fun field hmem => ?_)
    obtain ⟨hvariadic, hshape⟩ := Bool.and_eq_true_iff.mp (hfields field hmem)
    refine Bool.and_eq_true_iff.mpr ⟨not_isVariadic_instantiate hvalues hvariadic, ?_⟩
    cases hnames : field.names with
    | cons => rfl
    | nil =>
      have hfree := hembedded field hmem
      rw [hnames] at hshape hfree
      dsimp only
      rw [instantiate_of_isEmbeddable hshape hfree]
      exact hshape
  | interface members =>
    cases members with
    | nil => cases hplace
    | cons names type tag rest =>
      have hmembers := List.all_eq_true.mp h
      have hembedded := List.all_eq_true.mp hkeeps
      refine List.all_eq_true.mpr (FieldList.forall_instantiate.mpr fun member hmem => ?_)
      have hshape := hmembers member hmem
      have hfree := hembedded member hmem
      unfold Field.fitsMember at hshape ⊢
      cases hnames : member.names with
      | cons => rfl
      | nil =>
        rw [hnames] at hshape hfree
        dsimp only
        rw [instantiate_of_isEmbeddable (Grammar.isEmbeddable_of_isTypeName hshape) hfree]
        exact hshape

end Values

/-! ## 4. Parentheses -/

theorem needsParens_of_not_isChannel {value : TypeExpr} (h : value.isChannel = false)
    (direction : Direction) : needsParens direction value = false := by
  unfold needsParens
  split
  · cases h
  · rfl

/-- Whether a channel of a channel needs parentheses is a matter of the two directions. -/
theorem needsParens_channel (direction inner : Direction) (value other : TypeExpr) :
    needsParens direction (.channel inner value) =
      needsParens direction (.channel inner other) := by
  cases direction <;> cases inner <;> rfl

/-- What stands for a value that is no channel is none without parentheses. -/
theorem isChannel_channelValue {before : TypeExpr} (h : before.isChannel = false)
    (after : TypeExpr) : (channelValue before after).isChannel = false := by
  cases hafter : after.isChannel with
  | true =>
    rw [channelValue_eq_paren h hafter]
    rfl
  | false => rw [channelValue, hafter, Bool.false_and, if_neg Bool.false_ne_true, hafter]

theorem FieldList.unwrapSingle_eq_iff {results : FieldList} :
    results.unwrapSingle = results ↔ ∀ inner tag, results ≠ .cons [] (.paren inner) tag .nil := by
  constructor
  · rintro h inner tag rfl
    cases h
  · intro h
    unfold unwrapSingle
    split
    · exact absurd rfl (h _ _)
    · rfl

/-- **No channel needs parentheses** that is not put in with them. -/
theorem TypeExpr.addsNoParens_instantiate (subst : Substitution) (type : TypeExpr)
    (hplace : type.isPlace = false) (h : type.addsNoParens = true) :
    (type.instantiate subst).addsNoParens = true := by
  cases type with
  | name => cases hplace
  | interface members =>
    cases members with
    | nil => cases hplace
    | cons => rfl
  | channel direction value =>
    cases hvalue : value.isChannel with
    | true =>
      cases value with
      | channel inner value =>
        rw [instantiate, channelValue_of_isChannel rfl, instantiate, addsNoParens,
          needsParens_channel direction inner _ value]
        exact h
      | _ => cases hvalue
    | false =>
      rw [instantiate, addsNoParens,
        needsParens_of_not_isChannel (isChannel_channelValue hvalue _), Bool.not_false]
  | _ => rfl

section Parens

variable {subst : Substitution} (hvalues : ∀ value ∈ subst.values, value.IsValue)

include hvalues

/-- **No single result loses parentheses**, as none is put in with them. -/
theorem TypeExpr.losesNoParens_instantiate (type : TypeExpr) (hplace : type.isPlace = false)
    (h : type.losesNoParens = true) : (type.instantiate subst).losesNoParens = true := by
  cases type with
  | name => cases hplace
  | interface members =>
    cases members with
    | nil => cases hplace
    | cons => rfl
  | function params results =>
    have hsingle := FieldList.unwrapSingle_eq_iff.mp (beq_iff_eq.mp h)
    refine beq_iff_eq.mpr (FieldList.unwrapSingle_eq_iff.mpr fun inner tag heq => ?_)
    obtain ⟨type, rfl, htype⟩ := FieldList.exists_of_instantiate_eq heq
    have hparen : type.isParen = true := isParen_of_instantiate hvalues (by rw [htype]; rfl)
    cases type with
    | paren inner => exact hsingle inner tag rfl
    | _ => cases hparen
  | _ => rfl

/-! ## 5. Instances -/

/-- **Instances are written as what they are**, if nothing is put into what is embedded. -/
theorem TypeExpr.IsFaithful.instantiate {type : TypeExpr} (h : type.IsFaithful)
    (hkeeps : type.everywhere (keepsEmbedded subst) = true) :
    (type.instantiate subst).IsFaithful where
  wellFormed := by
    have hmaintains : subst.Maintains fits (keepsEmbedded subst) :=
      ⟨fun value hmem => (hvalues value hmem).faithful.wellFormed.everywhere_fits,
        fits_instantiate hvalues, fun _ _ => rfl⟩
    have hfits := everywhere_instantiate hmaintains type h.wellFormed.everywhere_fits hkeeps
    have hbindable := h.wellFormed.instantiate
      (fun value hmem => (hvalues value hmem).faithful.wellFormed.isBindable) hfits
    exact hbindable.isWellFormed (not_isVariadic_instantiate hvalues h.wellFormed.not_isVariadic)
  adds :=
    everywhere_instantiate ⟨fun value hmem => (hvalues value hmem).faithful.adds,
      fun type hplace hadds _ => addsNoParens_instantiate subst type hplace hadds, fun _ _ => rfl⟩
      type h.adds h.adds
  loses :=
    everywhere_instantiate ⟨fun value hmem => (hvalues value hmem).faithful.loses,
      fun type hplace hloses _ => losesNoParens_instantiate hvalues type hplace hloses,
      fun _ _ => rfl⟩
      type h.loses h.loses

end Parens

/-- **Instances are read back.** Take a type of the language whose text neither adds nor loses
    parentheses, and put such types, none of them in parentheses, in for its names, but for those
    that are embedded. What is read from the text of the instance is the instance. -/
theorem TypeExpr.parse_render_instantiate {type : TypeExpr} {subst : Substitution}
    (h : type.IsFaithful) (hvalues : ∀ value ∈ subst.values, value.IsValue)
    (hkeeps : type.everywhere (keepsEmbedded subst) = true) :
    TypeExpr.parse (type.instantiate subst).render = .ok (type.instantiate subst) := by
  have hinstance := h.instantiate hvalues hkeeps
  rw [TypeExpr.parse_render_eq hinstance.wellFormed,
    TypeExpr.reread_eq_self _ hinstance.adds hinstance.loses]

/-- A guarded stage of a pipeline, `struct { in chan T; next func(interface{}) T; *Guard }`. -/
def guardedStage : TypeExpr :=
  .struct (.cons ["in"] (.channel .both (.name "T")) none
    (.cons ["next"]
      (.function (.cons [] .emptyInterface none .nil) (.cons [] (.name "T") none .nil)) none
      (.cons [] (.pointer (.name "Guard")) none .nil)))

/-- The direction of a channel that is put into a channel is not lost. -/
theorem TypeExpr.parse_render_instantiate_stage :
    ∃ subst : Substitution,
      subst.entries =
        [(.name "T", .channel .receive (.name "int")), (.universal, .name "string")] ∧
      TypeExpr.parse (guardedStage.instantiate subst).render =
        .ok (guardedStage.instantiate subst) ∧
      (guardedStage.instantiate subst).render =
        "struct \x7b in chan (<-chan int); next func(string) <-chan int; *Guard \x7d" := by
  have hname : (TypeExpr.name "T").IsWellFormed := .name (by decide +kernel)
  have hempty : emptyInterface.IsWellFormed :=
    .interface (List.forall_mem_nil _) (List.forall_mem_nil _)
  have hnext : IsWellFormed (.function (.cons [] .emptyInterface none .nil)
      (.cons [] (.name "T") none .nil)) := by
    refine .function ⟨by decide, by decide, .inl (by decide)⟩
      ⟨by decide, by decide, .inl (by decide)⟩ ?_ (List.forall_mem_singleton.mpr hempty)
      (List.forall_mem_singleton.mpr hname)
    intro elem tag h
    cases h
  have htag : ∀ tag, (none : Option String) = some tag → isTag tag = true := by
    intro tag h
    cases h
  have hstage : guardedStage.IsFaithful := by
    refine ⟨.struct ?_ ?_, rfl, rfl⟩
    · simp only [FieldList.toList, List.forall_mem_cons]
      exact ⟨⟨by decide +kernel, by decide, htag⟩, ⟨by decide +kernel, by decide, htag⟩,
        ⟨by decide, by decide, htag⟩, List.forall_mem_nil _⟩
    · simp only [FieldList.toList, List.forall_mem_cons]
      exact ⟨.channel hname, hnext, .pointer (.name (by decide +kernel)), List.forall_mem_nil _⟩
  refine ⟨⟨[(.name "T", .channel .receive (.name "int")), (.universal, .name "string")],
    by decide⟩, rfl, TypeExpr.parse_render_instantiate hstage ?_ rfl, by decide⟩
  refine List.forall_mem_cons.mpr ⟨?_, List.forall_mem_singleton.mpr ?_⟩
  · exact ⟨⟨.channel (.name (by decide +kernel)), rfl, rfl⟩, rfl⟩
  · exact ⟨⟨.name (by decide +kernel), rfl, rfl⟩, rfl⟩

end GoStencil
