import GoStencil.Proofs.Matching.Equivalents
import GoStencil.Proofs.Mentions

/-!
# One substitution after another

What is put in for a name is not looked at again. So two substitutions, applied one after the other,
are one: it binds what the first binds, to types with the second applied to them, and what only the
second binds. This is exact, also for the parentheses around a channel that was put in.

* `Substitution.Composes`: the substitutions that bind what two of them bind one after the other.
  `Substitution.andThen` is one.
* `TypeExpr.instantiate_instantiate`: they do what the two do.
* `TypeExpr.instantiate_eq_self`: a substitution that binds nothing in a type leaves it as it is.
* `TypeExpr.instantiate_composes`: so instances are made by simultaneous substitution.
-/

namespace GoStencil

/-! ## 1. Substitutions -/

namespace Substitution

/-- Whether a substitution binds what another one binds, to types with a second one applied to
    them, and otherwise what the second one binds. -/
def Composes (whole first second : Substitution) : Prop :=
  ∀ key, whole.get? key =
    ((first.get? key).map (TypeExpr.instantiate second)).or (second.get? key)

/-- The bindings of the first substitution, with the second applied to their types, and then those
    of the second for all other keys. -/
def andThen (first second : Substitution) : Substitution where
  entries :=
    first.entries.map (fun entry => (entry.1, entry.2.instantiate second)) ++
      second.entries.filter fun entry => entry.1 ∉ first.keys
  nodup := by
    have hfirst : (first.entries.map fun entry => (entry.1, entry.2.instantiate second)).map
        Prod.fst = first.keys := List.map_map
    rw [List.map_append, hfirst]
    have hsecond := second.nodup.sublist
      ((List.filter_sublist (p := fun entry => decide (entry.1 ∉ first.keys))).map Prod.fst)
    refine List.nodup_append.mpr ⟨first.nodup, hsecond, ?_⟩
    intro key hkey other hother
    obtain ⟨entry, hentry, rfl⟩ := List.mem_map.mp hother
    have hnew : entry.1 ∉ first.keys := by simpa using (List.mem_filter.mp hentry).2
    exact fun e => hnew (e ▸ hkey)

theorem composes_andThen (first second : Substitution) :
    (first.andThen second).Composes first second := by
  refine fun key => Option.ext fun type => ?_
  rw [get?_eq_some_iff, andThen, List.mem_append, List.mem_map, List.mem_filter]
  cases hfirst : first.get? key with
  | some bound =>
    have hentry := get?_eq_some_iff.mp hfirst
    rw [Option.map_some, Option.some_or, Option.some.injEq]
    constructor
    · rintro (⟨⟨found, value⟩, hmem, e⟩ | ⟨-, hnew⟩)
      · cases e
        rw [get?_eq_some_iff.mpr hmem] at hfirst
        cases hfirst
        rfl
      · have hkey : key ∈ first.keys := List.mem_map.mpr ⟨_, hentry, rfl⟩
        simp [hkey] at hnew
    · rintro rfl
      exact .inl ⟨_, hentry, rfl⟩
  | none =>
    have hkey := get?_eq_none_iff.mp hfirst
    rw [Option.map_none, Option.none_or, get?_eq_some_iff]
    constructor
    · rintro (⟨⟨found, value⟩, hmem, e⟩ | ⟨hmem, -⟩)
      · cases e
        exact absurd (List.mem_map.mpr ⟨_, hmem, rfl⟩) hkey
      · exact hmem
    · intro hmem
      exact .inr ⟨hmem, by simpa using hkey⟩

end Substitution

/-! ## 2. Channels -/

theorem TypeExpr.isChannel_instantiate {type : TypeExpr} (h : type.isChannel = true)
    (subst : Substitution) : (type.instantiate subst).isChannel = true := by
  cases type with
  | channel => rfl
  | _ => cases h

/-- A channel that stood there before gets no parentheses. -/
theorem channelValue_of_isChannel {before : TypeExpr} (h : before.isChannel = true)
    (after : TypeExpr) : channelValue before after = after := by
  rw [channelValue, h, Bool.not_true, Bool.and_false, if_neg Bool.false_ne_true]

/-- A channel that was put in for something else gets parentheses. -/
theorem channelValue_eq_paren {before after : TypeExpr} (h : before.isChannel = false)
    (hafter : after.isChannel = true) : channelValue before after = .paren after := by
  rw [channelValue, h, hafter, Bool.not_false, Bool.and_self, if_pos rfl]

/-- **The parentheses around a channel come out in the same place** whether it is put in by the
    first or by the second of two substitutions. -/
theorem channelValue_channelValue {before between : TypeExpr}
    (h : before.isChannel = true → between.isChannel = true) (subst : Substitution) :
    channelValue (channelValue before between) ((channelValue before between).instantiate subst) =
      channelValue before (between.instantiate subst) := by
  cases hbefore : before.isChannel with
  | true =>
    rw [channelValue_of_isChannel hbefore, channelValue_of_isChannel hbefore,
      channelValue_of_isChannel (h hbefore)]
  | false =>
    cases hbetween : between.isChannel with
    | true =>
      rw [channelValue_eq_paren hbefore hbetween,
        channelValue_eq_paren hbefore (TypeExpr.isChannel_instantiate hbetween subst)]
      rfl
    | false => simp [channelValue, hbefore, hbetween]

/-! ## 3. Types -/

section Composes

variable {whole first second : Substitution}

mutual

/-- **Two substitutions, one after the other, are one.** -/
theorem TypeExpr.instantiate_instantiate (h : whole.Composes first second) : ∀ type : TypeExpr,
    (type.instantiate first).instantiate second = type.instantiate whole
  | .name ident => by
    rw [TypeExpr.instantiate, TypeExpr.instantiate, Substitution.getName?, Substitution.getName?,
      h (.name ident)]
    cases first.get? (.name ident) with
    | none => rfl
    | some bound => rfl
  | .qualified _ _ => rfl
  | .pointer elem => congrArg TypeExpr.pointer (TypeExpr.instantiate_instantiate h elem)
  | .array length elem => congrArg (TypeExpr.array length) (TypeExpr.instantiate_instantiate h elem)
  | .variadic elem => congrArg TypeExpr.variadic (TypeExpr.instantiate_instantiate h elem)
  | .paren inner => congrArg TypeExpr.paren (TypeExpr.instantiate_instantiate h inner)
  | .channel direction value => by
    rw [TypeExpr.instantiate, TypeExpr.instantiate, TypeExpr.instantiate,
      channelValue_channelValue (TypeExpr.isChannel_instantiate · first),
      TypeExpr.instantiate_instantiate h value]
  | .map key value =>
    congrArg₂ TypeExpr.map (TypeExpr.instantiate_instantiate h key)
      (TypeExpr.instantiate_instantiate h value)
  | .function params results =>
    congrArg₂ TypeExpr.function (FieldList.instantiate_instantiate h params)
      (FieldList.instantiate_instantiate h results)
  | .struct fields => congrArg TypeExpr.struct (FieldList.instantiate_instantiate h fields)
  | .interface .nil => by
    -- an empty interface that the first substitution puts in is one for the second
    rw [TypeExpr.instantiate, TypeExpr.instantiate, Substitution.universal?,
      Substitution.universal?, h .universal]
    cases first.get? .universal with
    | none => rfl
    | some bound => rfl
  | .interface (.cons names type tag rest) =>
    congrArg TypeExpr.interface (FieldList.instantiate_instantiate h (.cons names type tag rest))

theorem FieldList.instantiate_instantiate (h : whole.Composes first second) :
    ∀ fields : FieldList,
    (fields.instantiate first).instantiate second = fields.instantiate whole
  | .nil => rfl
  | .cons names type tag rest => by
    rw [FieldList.instantiate, FieldList.instantiate, FieldList.instantiate,
      TypeExpr.instantiate_instantiate h type, FieldList.instantiate_instantiate h rest]

end

end Composes

/-! ## 4. Types that stay as they are -/

/-- Whether a substitution has nothing to put into a type: it binds no name in it, and not the
    empty interface if there is one in it. -/
structure TypeExpr.IsUntouched (subst : Substitution) (type : TypeExpr) : Prop where
  names : ∀ ident ∈ type.names, subst.bindsName ident = false
  universal : subst.universal? = none ∨ type.everywhere (!·.isEmptyInterface) = true

theorem TypeExpr.IsUntouched.part {subst : Substitution} {type part : TypeExpr}
    (h : type.IsUntouched subst) (hpart : part ∈ type.parts) : part.IsUntouched subst where
  names ident hmem := h.names ident (mem_names_of_mem_parts hpart hmem)
  universal := h.universal.imp_right fun hnone =>
    (hereditary_everywhere fun _ => rfl).part hnone hpart

theorem channelValue_self (type : TypeExpr) : channelValue type type = type := by
  rw [channelValue, Bool.and_not_self, if_neg Bool.false_ne_true]

section IsUntouched

variable {subst : Substitution}

mutual

/-- **A substitution with nothing to put into a type leaves it as it is.** -/
theorem TypeExpr.instantiate_eq_self : ∀ type : TypeExpr, type.IsUntouched subst →
    type.instantiate subst = type
  | .name ident, h => by
    have hfree := Substitution.bindsName_eq_false_iff.mp (h.names ident List.mem_cons_self)
    rw [TypeExpr.instantiate, Substitution.getName?, hfree]
    rfl
  | .qualified _ _, _ => rfl
  | .pointer elem, h =>
    congrArg TypeExpr.pointer (TypeExpr.instantiate_eq_self elem (h.part List.mem_cons_self))
  | .array length elem, h =>
    congrArg (TypeExpr.array length)
      (TypeExpr.instantiate_eq_self elem (h.part List.mem_cons_self))
  | .variadic elem, h =>
    congrArg TypeExpr.variadic (TypeExpr.instantiate_eq_self elem (h.part List.mem_cons_self))
  | .paren inner, h =>
    congrArg TypeExpr.paren (TypeExpr.instantiate_eq_self inner (h.part List.mem_cons_self))
  | .channel direction value, h => by
    rw [TypeExpr.instantiate, TypeExpr.instantiate_eq_self value (h.part List.mem_cons_self),
      channelValue_self]
  | .map key value, h =>
    congrArg₂ TypeExpr.map (TypeExpr.instantiate_eq_self key (h.part List.mem_cons_self))
      (TypeExpr.instantiate_eq_self value
        (h.part (List.mem_cons_of_mem _ List.mem_cons_self)))
  | .function params results, h =>
    congrArg₂ TypeExpr.function
      (FieldList.instantiate_eq_self params fun _ hmem => h.part (List.mem_append_left _ hmem))
      (FieldList.instantiate_eq_self results fun _ hmem => h.part (List.mem_append_right _ hmem))
  | .struct fields, h =>
    congrArg TypeExpr.struct (FieldList.instantiate_eq_self fields fun _ hmem => h.part hmem)
  | .interface .nil, h => by
    rcases h.universal with hnone | hnone
    · rw [TypeExpr.instantiate, hnone]
      rfl
    · cases hnone
  | .interface (.cons names type tag rest), h =>
    congrArg TypeExpr.interface
      (FieldList.instantiate_eq_self (.cons names type tag rest) fun _ hmem => h.part hmem)

theorem FieldList.instantiate_eq_self : ∀ fields : FieldList,
    (∀ type ∈ fields.types, type.IsUntouched subst) → fields.instantiate subst = fields
  | .nil, _ => rfl
  | .cons names type tag rest, h => by
    obtain ⟨htype, hrest⟩ := List.forall_mem_cons.mp h
    rw [FieldList.instantiate, TypeExpr.instantiate_eq_self type htype,
      FieldList.instantiate_eq_self rest hrest]

end

end IsUntouched

/-! ## 5. Simultaneous substitution -/

/-- **Instances are made by simultaneous substitution.** There is one substitution that binds what
    two bind one after the other, and each such substitution has the same instances, exactly, as the
    two of them one after the other. A substitution that binds no name in a type, and not the empty
    interface if there is one in it, leaves the type as it is. -/
theorem TypeExpr.instantiate_composes :
    (∀ first second : Substitution, (first.andThen second).Composes first second) ∧
    (∀ (whole first second : Substitution) (type : TypeExpr), whole.Composes first second →
      (type.instantiate first).instantiate second = type.instantiate whole) ∧
    ∀ (subst : Substitution) (type : TypeExpr),
      (∀ ident ∈ type.names, subst.bindsName ident = false) →
      (subst.universal? = none ∨ type.everywhere (!·.isEmptyInterface) = true) →
      type.instantiate subst = type := by
  refine ⟨Substitution.composes_andThen, ?_, ?_⟩
  · intro whole first second type hwhole
    exact TypeExpr.instantiate_instantiate hwhole type
  · intro subst type hnames huniversal
    exact TypeExpr.instantiate_eq_self type ⟨hnames, huniversal⟩

/-- `struct { in chan T; on func(interface{}) }`, what a stage of a pipeline holds. -/
def stageType : TypeExpr :=
  .struct (.cons ["in"] (.channel .both (.name "T")) none
    (.cons ["on"] (.function (.cons [] .emptyInterface none .nil) .nil) none .nil))

/-- First the items become channels, then what they and all events carry is given. -/
theorem TypeExpr.instantiate_composes_stage :
    ∃ first second whole : Substitution,
      first.entries = [(.name "T", .channel .receive (.name "U"))] ∧
      second.entries = [(.name "U", .name "int"), (.universal, .name "string")] ∧
      whole.Composes first second ∧
      whole.keys = [.name "T", .name "U", .universal] ∧
      (stageType.instantiate first).instantiate second = stageType.instantiate whole ∧
      (stageType.instantiate whole).render =
        "struct \x7b in chan (<-chan int); on func(string) \x7d" ∧
      stageType.instantiate (⟨[(.name "U", .name "int")], by decide⟩ : Substitution) =
        stageType :=
  let first : Substitution := ⟨[(.name "T", .channel .receive (.name "U"))], by decide⟩
  let second : Substitution :=
    ⟨[(.name "U", .name "int"), (.universal, .name "string")], by decide⟩
  ⟨first, second, first.andThen second, rfl, rfl,
    TypeExpr.instantiate_composes.1 first second, rfl,
    TypeExpr.instantiate_composes.2.1 _ first second stageType
      (TypeExpr.instantiate_composes.1 first second),
    by decide, TypeExpr.instantiate_composes.2.2 _ stageType (by decide) (.inl rfl)⟩

end GoStencil
