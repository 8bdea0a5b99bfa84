import GoStencil.Proofs.Instantiation
import GoStencil.Proofs.Matching.ParenFree
import GoStencil.Proofs.Specialization.Trials

/-!
# No template type is left in an output

* `Trial.hereditary_of_bindRest`: everything that a trial binds is a name or part of a provider
  type.
* `Trial.exists_name_of_bindRelated`: related types are bound to names, provided the provider has
  no types in parentheses.
* `specialize_leaves_no_template_type`: an output mentions no type of the template, unless it was
  bound to something that mentions it, or the text around an identifier in a body keeps it
  (`Occurrence.isKept`).
-/

namespace GoStencil

/-! ## 1. What a trial binds -/

namespace Trial

variable {trial : Trial} {P : TypeExpr → Prop} {subst last : Substitution}

/-- Whether a property holds of all types that the provider declares, and of their names. -/
structure HoldsOfCandidates (trial : Trial) (P : TypeExpr → Prop) : Prop where
  name : ∀ decl ∈ trial.provider.types, P (.name decl.name)
  type : ∀ decl ∈ trial.provider.types, P decl.type

theorem hereditary_of_unifyDecl (hP : Hereditary P) (hprovider : trial.HoldsOfCandidates P)
    {target candidate : TypeDecl} {grown : Substitution}
    (hcandidate : candidate ∈ trial.provider.types)
    (h : trial.matcher.unifyDecl target candidate subst = .ok grown)
    (hvalues : ∀ value ∈ subst.values, P value) : ∀ value ∈ grown.values, P value := by
  obtain ⟨mid, hbind, hrest⟩ := Matcher.unifyDecl_eq_ok h
  have hmid := Matcher.forall_values_of_bind hvalues (hprovider.name candidate hcandidate) hbind
  rcases hrest with ⟨-, rfl⟩ | ⟨-, hunify⟩
  · exact hmid
  · exact Matcher.hereditary_of_unify hP (fun _ => hP.resolve hprovider.type) hunify
      (hprovider.type candidate hcandidate) hmid

theorem hereditary_of_bindRest (hP : Hereditary P) (hprovider : trial.HoldsOfCandidates P)
    (hcandidates : ∀ candidate ∈ trial.candidates, candidate ∈ trial.provider.types)
    {targets : List TypeDecl} {consumed : List String}
    (h : trial.bindRest targets consumed subst = .ok last) :
    (∀ value ∈ subst.values, P value) → ∀ value ∈ last.values, P value := by
  refine bindRest_induction trial (motive := fun _ _ subst =>
    (∀ value ∈ subst.values, P value) → ∀ value ∈ last.values, P value) ?_ ?_ ?_ h
  · intro _ hvalues
    exact hvalues
  · intro target rest consumed subst _ _ ih hvalues
    exact ih hvalues
  · intro target rest consumed subst candidate grown _ hmem _ hunify _ ih hvalues
    exact ih (hereditary_of_unifyDecl hP hprovider (hcandidates candidate hmem) hunify hvalues)

/-- Related types are bound to names. -/
theorem exists_name_of_bindRelated {candidate : TypeDecl} {decls : List TypeDecl}
    (h : trial.bindRelated candidate decls subst = .ok last) :
    (∀ value ∈ subst.values, value.isParenFree = true) →
      ∀ decl ∈ decls, ∃ name, last.getName? decl.name = some (.name name) := by
  refine bindRelated_induction trial candidate (motive := fun decls subst =>
    (∀ value ∈ subst.values, value.isParenFree = true) →
      ∀ decl ∈ decls, ∃ name, last.getName? decl.name = some (.name name)) ?_ ?_ h
  · intro _
    nofun
  · intro decl rest subst grown name _ hbind hrest ih hvalues other hmem
    have hgrown := Matcher.forall_values_of_bind (P := fun type => type.isParenFree = true) hvalues
      rfl hbind
    rcases List.mem_cons.mp hmem with rfl | hmem
    · -- the type may have been bound before, to an equivalent type that has no parentheses
      obtain ⟨type, hget, heq⟩ := Substitution.exists_get?_of_bind hbind
      have htype := hgrown type (Substitution.mem_values_of_get? hget)
      rw [TypeExpr.eq_name_of_equivalent htype heq] at hget
      exact ⟨name, Substitution.get?_of_le (le_of_bindRelated hrest) hget⟩
    · exact ih hgrown other hmem

/-- The declarations that are left out are those named like a target. -/
theorem isScaffolding_type {options : Options} {template provider : SourceFile} {decl : TypeDecl}
    (h : decl ∈ template.typeDecls) :
    (Trial.of options template provider).isScaffolding (.type decl) =
      !isRelated options.marker decl.name := by
  rw [isScaffolding, Bool.eq_iff_iff, List.any_eq_true]
  constructor
  · rintro ⟨target, hmem, hname⟩
    obtain ⟨-, hmarker⟩ := mem_targets_of.mp hmem
    rw [← beq_iff_eq.mp hname, hmarker]
    rfl
  · intro hmarker
    obtain ⟨target, hmem, hname⟩ := exists_mem_firstByName h
    refine ⟨target, mem_targets_of.mpr ⟨hmem, ?_⟩, beq_iff_eq.mpr hname⟩
    rw [hname]
    simpa using hmarker

end Trial

/-! ## 2. Outputs -/

/-- Whether a declaration of the template is written out: every one but the types without the
    marker, which the provider implements. -/
def Decl.isWritten (marker : String) : Decl → Bool
  | .type decl => isRelated marker decl.name
  | _ => true

/-- The plain names in the type expressions of a declaration. -/
def Decl.typeNames : Decl → List String
  | .type decl => decl.type.names
  | .func decl =>
    (decl.receiver.map FieldList.typeNames).getD [] ++ decl.params.typeNames ++
      decl.results.typeNames
  | .value _ => []

/-- The token stream of a declaration. -/
def Decl.body? : Decl → Option Body
  | .type _ => none
  | .func decl => decl.body
  | .value decl => some decl.body

theorem Decl.mem_typeNames_instantiate {subst : Substitution} {ident : String} :
    ∀ {decl : Decl}, ident ∈ (decl.instantiate subst).typeNames →
      subst.Explains decl.typeNames ident
  | .type decl, h => TypeExpr.mem_names_instantiate decl.type h
  | .value _, h => by cases h
  | .func ⟨_, receiver, params, results, _, _⟩, h => by
    rcases List.mem_append.mp h with h | h
    · rcases List.mem_append.mp h with h | h
      · cases receiver with
        | none => cases h
        | some fields =>
          exact (FieldList.mem_typeNames_instantiate fields h).mono fun _ hmem =>
            List.mem_append_left _ (List.mem_append_left _ hmem)
      · exact (FieldList.mem_typeNames_instantiate params h).mono fun _ hmem =>
          List.mem_append_left _ (List.mem_append_right _ hmem)
    · exact (FieldList.mem_typeNames_instantiate results h).mono fun _ =>
        List.mem_append_right _

theorem Decl.body?_instantiate (subst : Substitution) (decl : Decl) :
    (decl.instantiate subst).body? = decl.body?.map (Body.instantiate subst) := by
  cases decl <;> rfl

/-- Whether it is accounted for that an identifier in the instance of a token stream may be called
    like a type of a template: it comes from an occurrence that is bound to that very name, or that
    is kept for the text around it. The text passes for that of a selector or of a key, which a type
    in a list of cases of several lines may have around it too. -/
def Occurrence.Accounts (template : SourceFile) (subst : Substitution) (occurrence : Occurrence)
    (ident : String) : Prop :=
  (∃ declared ∈ template.typeDecls, declared.name = ident) →
    subst.getName? occurrence.ident = some (.name ident) ∨
      (occurrence.ident = ident ∧ occurrence.isKept = true)

/-- Whether the token stream of a declaration, if it has one, comes from that of another declaration
    with all its identifiers accounted for. -/
def Decl.BodyAccounted (template : SourceFile) (subst : Substitution) (decl written : Decl) :
    Prop :=
  ∀ body, written.body? = some body → ∃ source, decl.body? = some source ∧
    ∃ origins, origins.Sublist source.occurrences ∧
      List.Forall₂ (Occurrence.Accounts template subst) origins body.identifiers

/-- What it takes that no type of a template is left in an output: all are bound, declarations and
    types name none of them, and the bodies only where the text around an identifier keeps it. -/
structure LeavesNoTemplateType (marker : String) (template : SourceFile)
    (output : Specialization) : Prop where
  bound : ∀ decl ∈ template.typeDecls, output.substitution.bindsName decl.name = true
  /-- The declarations are those of the template in their order, without the targets. -/
  decls : output.file.decls =
    (template.decls.filter (Decl.isWritten marker)).map (Decl.instantiate output.substitution)
  /-- A related type is declared under the name that it is bound to. -/
  related : ∀ decl ∈ template.typeDecls, isRelated marker decl.name = true →
    ∃ name, output.substitution.getName? decl.name = some (.name name) ∧
      Decl.instantiate output.substitution (.type decl) =
        .type ⟨name, decl.isAlias, decl.type.instantiate output.substitution, decl.span⟩
  /-- A name in a type is no type of the template, or is part of something that is bound. -/
  names : ∀ written ∈ output.file.decls, ∀ ident ∈ written.typeNames,
    (∀ declared ∈ template.typeDecls, declared.name ≠ ident) ∨
      ∃ value ∈ output.substitution.values, ident ∈ value.names
  bodies : List.Forall₂ (Decl.BodyAccounted template output.substitution)
    (template.decls.filter (Decl.isWritten marker)) output.file.decls

section Written

variable {template : SourceFile} {subst : Substitution}
  (hbound : ∀ decl ∈ template.typeDecls, subst.bindsName decl.name = true)

include hbound

theorem not_declared_of_free {ident : String} (hfree : subst.bindsName ident = false) :
    ∀ declared ∈ template.typeDecls, declared.name ≠ ident := by
  rintro declared hmem rfl
  rw [hbound declared hmem] at hfree
  cases hfree

theorem Occurrence.accounts_of_yields {occurrence : Occurrence} {ident : String}
    (h : occurrence.Yields subst ident) : occurrence.Accounts template subst ident := by
  rintro ⟨declared, hmem, hname⟩
  rcases h with hget | ⟨hident, hfree | hkept⟩
  · exact .inl hget
  · exact absurd hname (not_declared_of_free hbound hfree declared hmem)
  · exact .inr ⟨hident, hkept⟩

theorem Decl.bodyAccounted_instantiate (decl : Decl) :
    decl.BodyAccounted template subst (decl.instantiate subst) := by
  intro body hbody
  rw [body?_instantiate] at hbody
  obtain ⟨source, hsource, rfl⟩ := Option.map_eq_some_iff.mp hbody
  obtain ⟨origins, hsub, hall⟩ := Body.identifiers_instantiate subst source
  exact ⟨source, hsource, origins, hsub,
    hall.imp fun _ _ => Occurrence.accounts_of_yields hbound⟩

end Written

theorem Trial.bindsName_of_run {options : Options} {template provider : SourceFile}
    {primary candidate : TypeDecl} {others : List TypeDecl} {output : Specialization}
    (htargets : (Trial.of options template provider).targets = primary :: others)
    (h : (Trial.of options template provider).run primary others candidate = .ok output) :
    ∀ decl ∈ template.typeDecls, output.substitution.bindsName decl.name = true := by
  obtain ⟨first, rest, final, hfirst, hrest, hfinal, rfl⟩ := run_eq_ok_iff.mp h
  intro decl hmem
  obtain ⟨found, hfound, hname⟩ := exists_mem_firstByName hmem
  rw [← hname]
  cases hmarker : isRelated options.marker found.name with
  | true => exact bindsName_of_bindRelated hfinal found (mem_related_of.mpr ⟨hfound, hmarker⟩)
  | false =>
    have htarget : found ∈ primary :: others := htargets ▸ mem_targets_of.mpr ⟨hfound, hmarker⟩
    refine Substitution.bindsName_of_le (le_of_bindRelated hfinal) ?_
    rcases List.mem_cons.mp htarget with rfl | htarget
    · exact Substitution.bindsName_of_le (le_of_bindRest hrest)
        (Matcher.bindsName_of_unifyDecl hfirst)
    · exact bindsName_of_bindRest hrest found htarget

theorem Trial.decls_file (options : Options) (template provider : SourceFile)
    (subst : Substitution) :
    ((Trial.of options template provider).file subst).decls =
      (template.decls.filter (Decl.isWritten options.marker)).map (Decl.instantiate subst) := by
  show (template.decls.filter fun decl =>
    !(Trial.of options template provider).isScaffolding decl).map _ = _
  congr 1
  refine List.filter_congr fun decl hmem => ?_
  cases decl with
  | type decl =>
    have htype : decl ∈ template.typeDecls := List.mem_filterMap.mpr ⟨.type decl, hmem, rfl⟩
    rw [isScaffolding_type htype, Bool.not_not]
    rfl
  | func => rfl
  | value => rfl

/-- **No type of the template is left in an output**, in its bodies up to identifiers that are kept
    for the text around them, provided that no type of the provider is in parentheses: a related
    type that is bound to its name in parentheses keeps its own. -/
theorem specialize_leaves_no_template_type {options : Options} {template provider : SourceFile}
    {output : Specialization}
    (hparens : ∀ decl ∈ provider.typeDecls, decl.type.isParenFree = true)
    (h : output ∈ (specialize options template provider).outputs) :
    LeavesNoTemplateType options.marker template output := by
  obtain ⟨primary, others, htargets, candidate, hcandidate, hrun⟩ := mem_outputs_iff.mp h
  have hbound := Trial.bindsName_of_run htargets hrun
  obtain ⟨first, rest, final, hfirst, hrest, hfinal, rfl⟩ := Trial.run_eq_ok_iff.mp hrun
  have hdecls := Trial.decls_file options template provider final
  have hprovider : (Trial.of options template provider).HoldsOfCandidates
      fun type => type.isParenFree = true :=
    ⟨fun _ _ => rfl, fun decl hmem => hparens decl (mem_of_mem_firstByName hmem)⟩
  have hvalues : ∀ value ∈ rest.values, value.isParenFree = true :=
    Trial.hereditary_of_bindRest hereditary_isParenFree hprovider
      (fun _ hmem => Scope.mem_mostStructuredFirst.mp hmem) hrest
      (Trial.hereditary_of_unifyDecl hereditary_isParenFree hprovider hcandidate hfirst nofun)
  refine ⟨hbound, hdecls, fun decl hmem hmarker => ?_, fun written hmem ident hident => ?_, ?_⟩
  · obtain ⟨found, hfound, hname⟩ := exists_mem_firstByName hmem
    obtain ⟨name, hget⟩ := Trial.exists_name_of_bindRelated hfinal hvalues found
      (Trial.mem_related_of.mpr ⟨hfound, hname ▸ hmarker⟩)
    rw [hname] at hget
    refine ⟨name, hget, ?_⟩
    rw [Decl.instantiate, declNameUnder, hget]
  · rw [hdecls] at hmem
    obtain ⟨decl, -, rfl⟩ := List.mem_map.mp hmem
    rcases Decl.mem_typeNames_instantiate hident with ⟨-, hfree⟩ | hvalue
    · exact .inl (not_declared_of_free hbound hfree)
    · exact .inr hvalue
  · rw [hdecls, List.forall₂_map_right_iff]
    exact List.forall₂_same.mpr fun decl _ => decl.bodyAccounted_instantiate hbound

/-- A template with a stack of items, whose body selects a field called like the stack. -/
def stackTemplate : SourceFile :=
  ⟨"stack", [], [.type ⟨"Item", false, .emptyInterface, ⟨0, 0⟩⟩,
    .type ⟨"_Stack", false, .array none (.name "Item"), ⟨0, 0⟩⟩,
    .func ⟨"Push", some (.cons ["s"] (.pointer (.name "_Stack")) none .nil),
      .cons ["item"] (.name "Item") none .nil, .nil,
      some ⟨[.text "\x7b *", .ident "s", .text " = ", .ident "_Stack", .text "(",
        .ident "item", .text ".", .ident "_Stack", .text ") \x7d"]⟩, ⟨0, 0⟩⟩], none⟩

/-- A provider with one type. -/
def countProvider : SourceFile :=
  ⟨"count", [], [.type ⟨"Count", false, .name "int", ⟨0, 0⟩⟩], none⟩

/-- The stack of counts does not mention the template's items and stacks. -/
theorem specialize_leaves_no_item :
    ∃ output ∈ (specialize .default stackTemplate countProvider).outputs,
      LeavesNoTemplateType "_" stackTemplate output := by
  have hmem := List.head_mem (l := (specialize .default stackTemplate countProvider).outputs)
    (by decide)
  exact ⟨_, hmem, specialize_leaves_no_template_type (by decide) hmem⟩

end GoStencil
