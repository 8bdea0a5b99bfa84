import GoStencil.Instantiation
import GoStencil.Proofs.Bindings
import Mathlib.Data.List.Forall2

/-!
# Where the names of an instance come from

* `TypeExpr.mem_names_instantiate`: a name in an instance of a type was there before and is not
  bound, or is part of something that is bound.
* `Body.identifiers_instantiate`: each identifier of an instance of a token stream comes from an
  identifier of the stream, in order: it is what that one is bound to, or that one itself, which
  then is not bound or is kept for the text around it (`Occurrence.isKept`).
-/

namespace GoStencil

/-! ## 1. Types -/

mutual

/-- The plain names in a type, from left to right, with repetition. -/
def TypeExpr.names : TypeExpr → List String
  | .name ident => [ident]
  | .qualified _ _ => []
  | .pointer elem => elem.names
  | .array _ elem => elem.names
  | .variadic elem => elem.names
  | .paren inner => inner.names
  | .channel _ value => value.names
  | .map key value => key.names ++ value.names
  | .function params results => params.typeNames ++ results.typeNames
  | .struct fields => fields.typeNames
  | .interface members => members.typeNames

/-- The plain names in the types of a list. -/
def FieldList.typeNames : FieldList → List String
  | .nil => []
  | .cons _ type _ rest => type.names ++ rest.typeNames

end

/-- Whether a name of an instance is accounted for: it is one of the given names and not bound, or
    is part of something that is bound. -/
def Substitution.Explains (subst : Substitution) (names : List String) (ident : String) : Prop :=
  (ident ∈ names ∧ subst.bindsName ident = false) ∨ ∃ value ∈ subst.values, ident ∈ value.names

namespace Substitution

variable {subst : Substitution} {names others : List String} {ident : String}

theorem Explains.mono (h : subst.Explains names ident) (hsub : ∀ name ∈ names, name ∈ others) :
    subst.Explains others ident := by
  rcases h with ⟨hmem, hfree⟩ | hvalue
  · exact .inl ⟨hsub ident hmem, hfree⟩
  · exact .inr hvalue

theorem mem_values_of_get? {key : Binding} {type : TypeExpr} (h : subst.get? key = some type) :
    type ∈ subst.values :=
  List.mem_map.mpr ⟨(key, type), get?_eq_some_iff.mp h, rfl⟩

end Substitution

theorem names_channelValue (before after : TypeExpr) :
    (channelValue before after).names = after.names := by
  unfold channelValue
  split <;> rfl

mutual

/-- **A name in an instance of a type was there before and is not bound, or is part of something
    that is bound.** -/
theorem TypeExpr.mem_names_instantiate {subst : Substitution} {ident : String} :
    ∀ (type : TypeExpr), ident ∈ (type.instantiate subst).names → subst.Explains type.names ident
  | .name name, h => by
    unfold TypeExpr.instantiate at h
    cases hget : subst.getName? name with
    | none =>
      rw [hget] at h
      cases List.mem_singleton.mp h
      exact .inl ⟨List.mem_cons_self, by rw [Substitution.bindsName, hget]; rfl⟩
    | some bound =>
      rw [hget] at h
      exact .inr ⟨bound, Substitution.mem_values_of_get? hget, h⟩
  | .qualified _ _, h => by cases h
  | .pointer elem, h | .array _ elem, h | .variadic elem, h | .paren elem, h =>
    TypeExpr.mem_names_instantiate elem h
  | .channel _ value, h => by
    rw [TypeExpr.instantiate, TypeExpr.names, names_channelValue] at h
    exact TypeExpr.mem_names_instantiate value h
  | .map key value, h => by
    rcases List.mem_append.mp h with h | h
    · exact (TypeExpr.mem_names_instantiate key h).mono fun _ => List.mem_append_left _
    · exact (TypeExpr.mem_names_instantiate value h).mono fun _ => List.mem_append_right _
  | .function params results, h => by
    rcases List.mem_append.mp h with h | h
    · exact (FieldList.mem_typeNames_instantiate params h).mono
        fun _ => List.mem_append_left _
    · exact (FieldList.mem_typeNames_instantiate results h).mono
        fun _ => List.mem_append_right _
  | .struct fields, h => FieldList.mem_typeNames_instantiate fields h
  | .interface .nil, h => by
    unfold TypeExpr.instantiate at h
    cases hget : subst.universal? with
    | none =>
      rw [hget] at h
      cases h
    | some bound =>
      rw [hget] at h
      exact .inr ⟨bound, Substitution.mem_values_of_get? hget, h⟩
  | .interface (.cons names type tag rest), h =>
    FieldList.mem_typeNames_instantiate (.cons names type tag rest) h

theorem FieldList.mem_typeNames_instantiate {subst : Substitution} {ident : String} :
    ∀ (fields : FieldList), ident ∈ (fields.instantiate subst).typeNames →
      subst.Explains fields.typeNames ident
  | .nil, h => by cases h
  | .cons _ type _ rest, h => by
    rcases List.mem_append.mp h with h | h
    · exact (TypeExpr.mem_names_instantiate type h).mono fun _ => List.mem_append_left _
    · exact (FieldList.mem_typeNames_instantiate rest h).mono
        fun _ => List.mem_append_right _

end

/-! ## 2. Token streams -/

/-- An identifier of a token stream with what precedes it, last segment first, and what follows. -/
structure Occurrence where
  before : List Segment
  ident : String
  after : List Segment

/-- The identifiers of some segments after those in `before`, given last first. -/
def occurrencesAfter : List Segment → List Segment → List Occurrence
  | _, [] => []
  | before, .ident ident :: after =>
    ⟨before, ident, after⟩ :: occurrencesAfter (.ident ident :: before) after
  | before, .text text :: after => occurrencesAfter (.text text :: before) after

/-- The identifiers of a token stream in order. -/
def Body.occurrences (body : Body) : List Occurrence :=
  occurrencesAfter [] body.segments

/-- Whether an identifier is kept although it is bound: the raw text before it ends with the dot of
    a selector, or the text around it passes for that of a key. This can hold of a type as well,
    such as the last in a list of cases on its second line. -/
def Occurrence.isKept (occurrence : Occurrence) : Bool :=
  followsSelector occurrence.before || isCompositeKey occurrence.before occurrence.after

/-- Whether an identifier of an instance comes from an occurrence in the original: the occurrence
    is bound to that very name, or is an identifier that stays as it is. -/
def Occurrence.Yields (subst : Substitution) (occurrence : Occurrence) (ident : String) : Prop :=
  subst.getName? occurrence.ident = some (.name ident) ∨
    (occurrence.ident = ident ∧
      (subst.bindsName ident = false ∨ occurrence.isKept = true))

/-- The identifier that a segment is. -/
def Segment.ident? : Segment → Option String
  | .ident source => some source
  | .text _ => none

theorem filterMap_ident?_joinSegment (segment : Segment) (segments : List Segment) :
    (Body.joinSegment segment segments).filterMap Segment.ident? =
      (segment :: segments).filterMap Segment.ident? := by
  fun_cases Body.joinSegment segment segments <;> rfl

theorem Body.identifiers_eq (body : Body) :
    body.identifiers = body.segments.filterMap Segment.ident? := by
  unfold identifiers
  congr 1

theorem Body.identifiers_ofSegments (segments : List Segment) :
    (ofSegments segments).identifiers = segments.filterMap Segment.ident? := by
  rw [identifiers_eq, ofSegments]
  induction segments with
  | nil => rfl
  | cons first rest ih =>
    rw [List.foldr_cons, filterMap_ident?_joinSegment, List.filterMap_cons, List.filterMap_cons, ih]

/-- What stands for a bound name is the bound type; as the value of a channel, with the parentheses
    that it gets there. -/
theorem source_boundSegment (before : List Segment) (ident : String) (bound : TypeExpr) :
    (boundSegment before bound).source =
      (if followsChanKeyword before then channelValue (.name ident) bound else bound).render := by
  cases bound with
  | channel direction value =>
    cases hchan : followsChanKeyword before <;>
      simp [boundSegment, hchan, channelValue, TypeExpr.isChannel, Segment.source, TypeExpr.render]
  | _ => simp [boundSegment, channelValue, TypeExpr.isChannel, Segment.source, TypeExpr.render]

/-- What stands for an identifier is an identifier that it yields, or text. -/
theorem yields_of_instantiateSegment {subst : Substitution} {before after : List Segment}
    {ident found : String}
    (h : (instantiateSegment subst before (.ident ident) after).ident? = some found) :
    Occurrence.Yields subst ⟨before, ident, after⟩ found := by
  unfold instantiateSegment at h
  dsimp only at h
  split at h
  · rename_i hfree
    cases h
    exact .inr ⟨rfl, .inl (by rw [Substitution.bindsName, hfree]; rfl)⟩
  · rename_i bound hget
    split at h
    · rename_i hkept
      cases h
      exact .inr ⟨rfl, .inr hkept⟩
    · unfold boundSegment at h
      split at h
      · cases h
        exact .inl hget
      · cases h
      · cases h

theorem exists_origins (subst : Substitution) : ∀ (before segments : List Segment),
    ∃ origins, origins.Sublist (occurrencesAfter before segments) ∧
      List.Forall₂ (Occurrence.Yields subst) origins
        ((instantiateSegments subst before segments).filterMap Segment.ident?)
  | _, [] => ⟨[], .slnil, .nil⟩
  | before, .text text :: after => exists_origins subst (.text text :: before) after
  | before, .ident ident :: after => by
    obtain ⟨origins, hsub, hall⟩ := exists_origins subst (.ident ident :: before) after
    rw [instantiateSegments, occurrencesAfter, List.filterMap_cons]
    cases hfound : (instantiateSegment subst before (.ident ident) after).ident? with
    | none => exact ⟨origins, hsub.cons _, hall⟩
    | some found =>
      exact ⟨⟨before, ident, after⟩ :: origins, hsub.cons_cons _,
        .cons (yields_of_instantiateSegment hfound) hall⟩

/-- **Each identifier of an instance comes from an identifier of the original**, different ones
    from different ones and in the same order. -/
theorem Body.identifiers_instantiate (subst : Substitution) (body : Body) :
    ∃ origins, origins.Sublist body.occurrences ∧
      List.Forall₂ (Occurrence.Yields subst) origins (body.instantiate subst).identifiers := by
  rw [instantiate, identifiers_ofSegments]
  exact exists_origins subst [] body.segments

end GoStencil
