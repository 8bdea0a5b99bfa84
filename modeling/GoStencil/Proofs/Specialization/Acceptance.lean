import GoStencil.Proofs.SourceFile.Instances
import GoStencil.Proofs.SourceFile.ParsedTypes
import GoStencil.Proofs.Specialization.Namesakes

/-!
# Outputs that are read again

A trial binds names, parts of what the provider declares, and the names it gives to related types.
All of it has been read or is spelled like it, so an output goes wrong only where a part of it
stands in a place that is read as something else.

* `Trial.isParsed_of_run`: everything bound in an output has been read, or takes any number of
  something that has.
* `Specialization.isLegible`: no part of an output is taken for something else.
* `specialize_writes_accepted`: such an output is read again from what is written of it.
-/

namespace GoStencil

open Grammar

/-! ## 1. What is bound -/

theorem SourceFile.IsParsed.typeDecl {file : SourceFile} (h : file.IsParsed) {decl : TypeDecl}
    (hmem : decl ∈ file.scope.types) : isName decl.name = true ∧ decl.type.IsParsed := by
  obtain ⟨item, hitem, hdecl⟩ := List.mem_filterMap.mp (mem_of_mem_firstByName hmem)
  cases item with
  | type =>
    cases hdecl
    cases h.decls _ hitem with
    | type hname htype => exact ⟨hname, htype⟩
  | func | value => cases hdecl

/-- What a type refers to is bound. -/
theorem TypeExpr.mem_values_of_mem_references {subst : Substitution} {type referenced : TypeExpr}
    (h : referenced ∈ type.references subst) : referenced ∈ subst.values := by
  rw [TypeExpr.references_eq] at h
  obtain ⟨ident, hident, rfl⟩ := List.mem_map.mp h
  obtain ⟨value, hvalue⟩ := Option.isSome_iff_exists.mp (List.mem_filter.mp hident).2
  rw [TypeExpr.instantiate, hvalue]
  exact Substitution.mem_values_of_get? hvalue

namespace Trial

variable {candidate : TypeDecl}

/-- The names of related types are names, so naming them binds nothing else. -/
theorem isParsed_of_bindRelated {trial : Trial} {subst last : Substitution} {decls : List TypeDecl}
    (hnaming : trial.options.nameOf = TypeExpr.niceName) (hcandidate : isName candidate.name = true)
    (h : trial.bindRelated candidate decls subst = .ok last) :
    (∀ decl ∈ decls, isName decl.name = true ∧
      isRelated trial.options.marker decl.name = true) →
    (∀ value ∈ subst.values, value.variadicElem.IsParsed) →
      ∀ value ∈ last.values, value.variadicElem.IsParsed := by
  refine bindRelated_induction trial candidate (motive := fun decls subst =>
    (∀ decl ∈ decls, isName decl.name = true ∧
      isRelated trial.options.marker decl.name = true) →
    (∀ value ∈ subst.values, value.variadicElem.IsParsed) →
      ∀ value ∈ last.values, value.variadicElem.IsParsed) (fun _ hvalues => hvalues) ?_ h
  intro decl rest subst grown name hname hbind _ ih hdecls hvalues
  obtain ⟨⟨hdecl, hmarker⟩, hrest⟩ := List.forall_mem_cons.mp hdecls
  rw [hnaming] at hname
  have hisName : isName name = true := hname ▸ isName_relatedName hdecl hmarker
    (fun type hmem => hvalues type (TypeExpr.mem_values_of_mem_references hmem))
    (Text.isCapitalized_capitalize hcandidate)
  have hparsed : (TypeExpr.name name).variadicElem.IsParsed := .name hisName
  exact ih hrest (Matcher.forall_values_of_bind hvalues hparsed hbind)

/-- **What a trial binds has been read**, or takes any number of something that has. -/
theorem isParsed_of_run {options : Options} {template provider : SourceFile} {primary : TypeDecl}
    {others : List TypeDecl} {output : Specialization}
    (hnaming : options.nameOf = TypeExpr.niceName)
    (htemplate : template.IsParsed) (hprovider : provider.IsParsed)
    (hcandidate : candidate ∈ provider.scope.types)
    (h : (Trial.of options template provider).run primary others candidate = .ok output) :
    ∀ value ∈ output.substitution.values, value.variadicElem.IsParsed := by
  obtain ⟨first, rest, final, hfirst, hrest, hfinal, rfl⟩ := run_eq_ok_iff.mp h
  have hoffered : (Trial.of options template provider).HoldsOfCandidates
      fun type => type.variadicElem.IsParsed :=
    ⟨fun decl hmem => .name (hprovider.typeDecl hmem).1, fun decl hmem =>
      have htype := (hprovider.typeDecl hmem).2
      htype.variadicElem_eq.symm ▸ htype⟩
  have hvalues := hereditary_of_bindRest hereditary_isParsed hoffered
    (fun _ hmem => Scope.mem_mostStructuredFirst.mp hmem) hrest
    (hereditary_of_unifyDecl hereditary_isParsed hoffered hcandidate hfirst nofun)
  refine isParsed_of_bindRelated hnaming (hprovider.typeDecl hcandidate).1 hfinal ?_ hvalues
  intro decl hmem
  obtain ⟨htype, hmarker⟩ := mem_related_of.mp hmem
  exact ⟨(htemplate.typeDecl htype).1, hmarker⟩

/-- Imports that are added are those of the provider. -/
theorem isParsed_of_carryImports (provider : Scope)
    (hprovider : ∀ spec ∈ provider.imports, spec.IsParsed) :
    ∀ (qualifiers : List String) {imports : List ImportSpec},
      (∀ spec ∈ imports, spec.IsParsed) →
        ∀ spec ∈ carryImports provider qualifiers imports, spec.IsParsed
  | [], _, h => h
  | qualifier :: rest, imports, h => by
    unfold carryImports
    split
    · exact isParsed_of_carryImports provider hprovider rest h
    · split
      · rename_i added hadded
        have hparsed := hprovider added (List.mem_of_find?_eq_some hadded)
        refine isParsed_of_carryImports provider hprovider rest (List.forall_mem_append.mpr ⟨h, ?_⟩)
        exact List.forall_mem_singleton.mpr ⟨hparsed.name, hparsed.path⟩
      · exact isParsed_of_carryImports provider hprovider rest h

end Trial

/-! ## 2. What is written -/

/-- Whether no part of an output is taken for something else when it is read: its imports end at
    the quotes written around them, the parts of its types stand where such types can, and its
    streams are scanned as those of the template are. -/
def Specialization.isLegible (template : SourceFile) (output : Specialization) : Bool :=
  output.file.imports.all ImportSpec.isWritable && output.file.decls.all Decl.isLegible &&
    template.decls.all fun decl => decl.body?.all (Body.keepsLexemes output.substitution)

section Written

variable {options : Options} {template provider : SourceFile} {subst : Substitution}
  (hvalues : ∀ value ∈ subst.values, value.variadicElem.IsParsed)

theorem Trial.exists_of_mem_decls_file {decl : Decl}
    (h : decl ∈ ((Trial.of options template provider).file subst).decls) :
    ∃ source ∈ template.decls, source.instantiate subst = decl := by
  rw [decls_file] at h
  obtain ⟨source, hsource, hdecl⟩ := List.mem_map.mp h
  exact ⟨source, (List.mem_filter.mp hsource).1, hdecl⟩

include hvalues

/-- The names, paths and types of what a trial writes are read again. -/
theorem Trial.isReadable_file (htemplate : template.IsParsed) (hprovider : provider.IsParsed)
    (himports : ((Trial.of options template provider).file subst).imports.all
      ImportSpec.isWritable = true)
    (hdecls : ((Trial.of options template provider).file subst).decls.all
      Decl.isLegible = true) :
    ((Trial.of options template provider).file subst).IsReadable := by
  rw [List.all_eq_true] at himports hdecls
  have hcarried := isParsed_of_carryImports provider.scope hprovider.imports
    (subst.values.flatMap TypeExpr.qualifiers) htemplate.imports
  constructor
  case package => exact hprovider.package
  case imports => exact fun spec hmem => (hcarried spec hmem).isReadable (himports spec hmem)
  case decls =>
    intro decl hmem
    obtain ⟨source, hsource, rfl⟩ := exists_of_mem_decls_file hmem
    exact (htemplate.decls source hsource).isReadable_instantiate hvalues (hdecls _ hmem)

/-- The streams of what a trial writes are read to their ends. -/
theorem Trial.isStreamRead_file {text : String}
    (hread : ∀ decl ∈ template.decls, decl.IsReadFrom text)
    (hkeeps : (template.decls.all fun decl =>
      decl.body?.all (Body.keepsLexemes subst)) = true) :
    ∀ decl ∈ ((Trial.of options template provider).file subst).decls, decl.IsStreamRead := by
  intro decl hmem
  obtain ⟨source, hsource, rfl⟩ := exists_of_mem_decls_file hmem
  exact (hread source hsource).isStreamRead_instantiate hvalues
    (List.all_eq_true.mp hkeeps source hsource)

end Written

/-- **An output for two files that have been read is read again** from what is written of it, if no
    part of it is taken for something else. -/
theorem specialize_writes_accepted {templateText providerText : String}
    {templateName providerName : Option String} {template provider : SourceFile}
    {output : Specialization}
    (htemplate : SourceFile.parse templateText templateName = .ok template)
    (hprovider : SourceFile.parse providerText providerName = .ok provider)
    (h : output ∈ (specialize .default template provider).outputs)
    (hlegible : output.isLegible template = true) (name : Option String) :
    ∃ read, SourceFile.parse output.file.render name = .ok read ∧
      read.bare = output.file.reread.bare := by
  have hparsed := SourceFile.isParsed_of_parse htemplate
  have hoffered := SourceFile.isParsed_of_parse hprovider
  obtain ⟨primary, others, -, candidate, hcandidate, hrun⟩ := mem_outputs_iff.mp h
  have hvalues := Trial.isParsed_of_run rfl hparsed hoffered hcandidate hrun
  obtain ⟨_, _, final, -, -, -, rfl⟩ := Trial.run_eq_ok_iff.mp hrun
  obtain ⟨hwritten, hkeeps⟩ := Bool.and_eq_true_iff.mp hlegible
  obtain ⟨himports, hdecls⟩ := Bool.and_eq_true_iff.mp hwritten
  exact SourceFile.parse_render_file
    (Trial.isReadable_file hvalues hparsed hoffered himports hdecls)
    (Trial.isStreamRead_file hvalues (SourceFile.isReadFrom_of_parse htemplate) hkeeps) name

/-- A template with a queue of items, and a function that takes any number of them. -/
def queueText : String :=
  "package queue\n\ntype Item interface\x7b\x7d\n\ntype List []Item\n\n" ++
    "type _Queue chan Item\n\n" ++
    "func (q _Queue) Put(items ...Item) List \x7b return List(items) \x7d\n\n" ++
    "var empty = List\x7b\x7d\n"

/-- A provider with lists of channels. -/
def timesText : String :=
  "package times\n\nimport \"time\"\n\ntype Times [](<-chan *time.Time)\n"

/-- The queue of channels is read again, with its function and its value. -/
theorem specialize_writes_accepted_queue :
    ∃ template provider, SourceFile.parse queueText none = .ok template ∧
      SourceFile.parse timesText none = .ok provider ∧
      ∃ output ∈ (specialize .default template provider).outputs,
        output.isLegible template = true ∧ output.file.decls.length = 3 ∧
        ∃ read, SourceFile.parse output.file.render none = .ok read ∧
          read.bare = output.file.reread.bare := by
  have hrun : (((SourceFile.parse queueText none).toOption.map fun template =>
      (SourceFile.parse timesText none).toOption.map fun provider =>
        (specialize .default template provider).outputs.any fun output =>
          output.isLegible template && output.file.decls.length == 3)) = some (some true) := by
    decide +kernel
  cases htemplate : SourceFile.parse queueText none with
  | error cause =>
    rw [htemplate] at hrun
    cases hrun
  | ok template =>
    cases hprovider : SourceFile.parse timesText none with
    | error cause =>
      rw [htemplate, hprovider] at hrun
      cases hrun
    | ok provider =>
      rw [htemplate, hprovider] at hrun
      obtain ⟨output, hmem, hchecks⟩ :=
        List.any_eq_true.mp (Option.some.inj (Option.some.inj hrun))
      obtain ⟨hlegible, hlength⟩ := Bool.and_eq_true_iff.mp hchecks
      exact ⟨template, provider, rfl, rfl, output, hmem, hlegible, eq_of_beq hlength,
        specialize_writes_accepted htemplate hprovider hmem hlegible none⟩

end GoStencil
