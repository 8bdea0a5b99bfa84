import GoStencil.Proofs.Specialization.Namesakes

/-!
# Related types in another order

The targets of a template are implemented alike in whatever order its related types are declared,
and there are the same outputs. Only the name of a related type whose definition mentions another
one may depend on which of the two comes first.

* `Decl.Reorders`: whether some declarations are others with the related types in another order.
* `Trial.bindAll_eq_of_reorders`: then the trials implement the targets alike.
* `specialize_reorder`: so they have the same outputs, but for names that depend on the order.
* `specialize_reorder_towersFirst`: there are such names.
-/

namespace GoStencil

/-! ## 1. Declarations in another order -/

namespace Decl

/-- Whether a declaration is one of a related type. -/
def isRelatedType (marker : String) : Decl → Bool
  | .type decl => isRelated marker decl.name
  | _ => false

/-- Whether some declarations are others with the related types in another order, and perhaps in
    other places between the other declarations. -/
structure Reorders (marker : String) (decls others : List Decl) : Prop where
  related : (others.filter (isRelatedType marker)).Perm (decls.filter (isRelatedType marker))
  rest : others.filter (fun decl => !isRelatedType marker decl) =
    decls.filter fun decl => !isRelatedType marker decl

theorem Reorders.perm {marker : String} {decls others : List Decl}
    (h : Reorders marker decls others) : others.Perm decls := by
  have hparts := h.related.append (.of_eq h.rest)
  exact ((List.filter_append_perm ..).symm.trans hparts).trans (List.filter_append_perm ..)

end Decl

namespace SourceFile

/-- A file with other declarations. -/
def withDecls (file : SourceFile) (decls : List Decl) : SourceFile :=
  { file with decls }

theorem filter_typeDecls (file : SourceFile) {p : TypeDecl → Bool} {q : Decl → Bool}
    (h : ∀ decl, q (.type decl) = p decl) :
    file.typeDecls.filter p = (file.withDecls (file.decls.filter q)).typeDecls := by
  rw [typeDecls, typeDecls, withDecls, List.filter_filterMap, List.filterMap_filter]
  refine congrArg (List.filterMap · file.decls) (funext fun decl => ?_)
  cases decl with
  | type decl =>
    rw [h]
    rfl
  | func | value => exact (ite_self none).symm

end SourceFile

/-- The search for the other targets depends on the candidates and on what implements what. -/
theorem Trial.bindRest_congr {trial other : Trial}
    (hcandidates : other.candidates = trial.candidates)
    (hunify : ∀ target candidate subst, other.matcher.unifyDecl target candidate subst =
      trial.matcher.unifyDecl target candidate subst) : ∀ (targets : List TypeDecl)
    (consumed : List String) (subst : Substitution),
      other.bindRest targets consumed subst = trial.bindRest targets consumed subst
  | [], _, _ => rfl
  | target :: rest, consumed, subst => by
    have hfirst : other.firstMatch target consumed subst =
        trial.firstMatch target consumed subst := by
      simp only [firstMatch, hcandidates, hunify]
    unfold bindRest
    rw [hfirst]
    split
    · exact bindRest_congr hcandidates hunify rest consumed subst
    · split
      · exact bindRest_congr hcandidates hunify rest _ _
      · rfl

section Reorder

variable {options : Options} {template provider : SourceFile} {others : List Decl}
  (hnodup : (template.typeDecls.map (·.name)).Nodup)
  (hdecls : Decl.Reorders options.marker template.decls others)

include hnodup hdecls

/-- Declarations in another order are all declared, since each name is declared once. -/
theorem types_of_reorders :
    template.scope.types = template.typeDecls ∧
      (template.withDecls others).scope.types = (template.withDecls others).typeDecls ∧
        (template.withDecls others).typeDecls.Perm template.typeDecls := by
  have hperm : (template.withDecls others).typeDecls.Perm template.typeDecls :=
    hdecls.perm.filterMap _
  exact ⟨firstByName_eq_self hnodup,
    firstByName_eq_self ((hperm.map (·.name)).nodup_iff.mpr hnodup), hperm⟩

theorem lookup_of_reorders (ident : String) :
    (template.withDecls others).scope.lookup ident = template.scope.lookup ident := by
  obtain ⟨htypes, hothers, hperm⟩ := types_of_reorders hnodup hdecls
  refine Option.ext fun decl => ?_
  rw [Scope.lookup_eq_some_iff, Scope.lookup_eq_some_iff, htypes, hothers, hperm.mem_iff]

theorem declComplexity_eq_of_reorders (decl : TypeDecl) :
    (template.withDecls others).scope.declComplexity decl = template.scope.declComplexity decl := by
  obtain ⟨htypes, hothers, hperm⟩ := types_of_reorders hnodup hdecls
  have hlength : template.scope.types.length ≤ (template.withDecls others).scope.types.length := by
    rw [htypes, hothers, hperm.length_eq]
  exact Scope.declComplexity_eq_of_lookup_eq (P := fun _ => True)
    (fun ident _ => lookup_of_reorders hnodup hdecls ident) (fun _ _ _ _ _ => trivial) hlength
    fun _ _ => trivial

namespace Trial

theorem related_perm_of_reorders :
    (Trial.of options (template.withDecls others) provider).related.Perm
      (Trial.of options template provider).related := by
  obtain ⟨htypes, hothers, -⟩ := types_of_reorders hnodup hdecls
  have hmarked : ∀ file : SourceFile,
      (file.typeDecls.filter fun decl => !!isRelated options.marker decl.name) =
        (file.withDecls (file.decls.filter (Decl.isRelatedType options.marker))).typeDecls :=
    fun file => file.filter_typeDecls fun _ => (Bool.not_not _).symm
  show ((template.withDecls others).scope.types.filter _).Perm (template.scope.types.filter _)
  rw [htypes, hothers, hmarked, hmarked]
  exact hdecls.related.filterMap _

theorem targets_eq_of_reorders :
    (Trial.of options (template.withDecls others) provider).targets =
      (Trial.of options template provider).targets := by
  obtain ⟨htypes, hothers, -⟩ := types_of_reorders hnodup hdecls
  have hunmarked : ∀ file : SourceFile,
      (file.typeDecls.filter fun decl => !isRelated options.marker decl.name) =
        (file.withDecls (file.decls.filter
          fun decl => !Decl.isRelatedType options.marker decl)).typeDecls :=
    fun file => file.filter_typeDecls fun _ => rfl
  show (template.withDecls others).scope.mostStructuredFirst _ =
    template.scope.mostStructuredFirst _
  have hcomplexity := declComplexity_eq_of_reorders hnodup hdecls
  rw [Scope.mostStructuredFirst_congr fun decl _ => hcomplexity decl, htypes, hothers, hunmarked,
    hunmarked]
  exact congrArg (fun decls => template.scope.mostStructuredFirst
    (template.withDecls decls).typeDecls) hdecls.rest

/-- **The targets are implemented alike**, whatever the order of the related types. -/
theorem bindAll_eq_of_reorders (primary : TypeDecl) (targets : List TypeDecl)
    (candidate : TypeDecl) :
    (Trial.of options (template.withDecls others) provider).bindAll primary targets candidate =
      (Trial.of options template provider).bindAll primary targets candidate := by
  have hresolve : ∀ type : TypeExpr, True →
      (Trial.of options (template.withDecls others) provider).matcher.resolve type =
        (Trial.of options template provider).matcher.resolve type :=
    fun _ _ => rfl
  have hunify : ∀ target candidate subst,
      (Trial.of options (template.withDecls others) provider).matcher.unifyDecl target candidate
          subst =
        (Trial.of options template provider).matcher.unifyDecl target candidate subst :=
    fun target candidate subst => Matcher.unifyDecl_eq_of_resolve_eq hereditary_true
      (fun _ _ => trivial) (lookup_of_reorders hnodup hdecls) hresolve target trivial subst
  have hcandidates : (Trial.of options (template.withDecls others) provider).candidates =
      (Trial.of options template provider).candidates := rfl
  rw [bindAll, bindAll, hunify]
  exact congrArg _ (funext fun subst => bindRest_congr hcandidates hunify targets _ subst)

/-- **A candidate is tried alike**, but for the names of related types that depend on the order. -/
theorem exists_run_of_reorders {primary candidate : TypeDecl} {targets : List TypeDecl}
    {subst last : Substitution}
    (htargets : (Trial.of options template provider).targets = primary :: targets)
    (hbind : (Trial.of options template provider).bindAll primary targets candidate = .ok subst)
    (hlast : (Trial.of options template provider).bindRelated candidate
      (Trial.of options template provider).related subst = .ok last)
    (hbound : ∀ related ∈ (Trial.of options template provider).related,
      subst.bindsName related.name = true → related.type.IsParsed ∨
        (Trial.of options template provider).NamedAlike
          (Trial.of options (template.withDecls others) provider) subst related) :
    ∃ found, (Trial.of options (template.withDecls others) provider).run primary targets candidate =
        .ok ⟨candidate.name,
          (Trial.of options (template.withDecls others) provider).file found, found⟩ ∧
      ∀ key, (∀ related ∈ (Trial.of options template provider).related,
        key = .name related.name → (Trial.of options template provider).NamedAlike
          (Trial.of options (template.withDecls others) provider) subst related) →
        found.get? key = last.get? key := by
  have hoptions : (Trial.of options (template.withDecls others) provider).options =
      (Trial.of options template provider).options := rfl
  have hperm : (Trial.of options (template.withDecls others) provider).related.Perm
      (Trial.of options template provider).related :=
    related_perm_of_reorders hnodup hdecls
  have hrelated : ((Trial.of options template provider).related.map (·.name)).Nodup :=
    ((types_of_reorders hnodup hdecls).1 ▸ hnodup).sublist (List.filter_sublist.map _)
  have hlookup : ∀ decl ∈ (Trial.of options template provider).related,
      template.scope.lookup decl.name = some decl :=
    fun decl hmem => Scope.lookup_of_mem (mem_related_of.mp hmem).1
  obtain ⟨found, hfound, hget⟩ := exists_bindRelated_of_namedAlike hoptions hperm hrelated
    (fun related hmem hself => (hbound related hmem hself).elim
      (namedAlike_of_bindsName hoptions hperm hlookup (settlesBound_of_bindAll htargets hbind) hmem
        hself) id) hlast
  refine ⟨found, ?_, hget⟩
  rw [run_of_bindAll ((bindAll_eq_of_reorders hnodup hdecls ..).trans hbind), hfound]
  rfl

end Trial

end Reorder

/-! ## 2. Outputs -/

/-- Whether a substitution is what implementing all targets leads to, the primary one by the
    candidate of the given name. -/
def Trial.Implements (trial : Trial) (name : String) (subst : Substitution) : Prop :=
  ∃ primary others candidate, trial.targets = primary :: others ∧ candidate ∈ trial.candidates ∧
    candidate.name = name ∧ trial.bindAll primary others candidate = .ok subst

/-- There is one at most, since each name is declared once. -/
theorem Trial.Implements.unique {options : Options} {template provider : SourceFile}
    {name : String} {subst subst' : Substitution}
    (h : (Trial.of options template provider).Implements name subst)
    (h' : (Trial.of options template provider).Implements name subst') : subst = subst' := by
  obtain ⟨primary, others, candidate, htargets, hcandidate, hname, hbind⟩ := h
  obtain ⟨_, _, candidate', htargets', hcandidate', hname', hbind'⟩ := h'
  cases htargets.symm.trans htargets'
  cases Scope.eq_of_name_eq (Scope.mem_mostStructuredFirst.mp hcandidate)
    (Scope.mem_mostStructuredFirst.mp hcandidate') (hname.trans hname'.symm)
  cases hbind.symm.trans hbind'
  rfl

/-- **Related types can be declared in another order**: each output is matched by one of the
    reordered template for the same candidate, which binds the same types to everything but the
    related types that are not named alike. Related types that implementing the targets has bound
    already must be named alike, which they are in a template that was read. -/
theorem specialize_reorder {options : Options} {template provider : SourceFile}
    {others : List Decl} {output : Specialization}
    (hnodup : (template.typeDecls.map (·.name)).Nodup)
    (hdecls : Decl.Reorders options.marker template.decls others)
    (houtput : output ∈ (specialize options template provider).outputs) :
    ∃ subst, (Trial.of options template provider).Implements output.name subst ∧
      ((∀ related ∈ (Trial.of options template provider).related,
        subst.bindsName related.name = true → related.type.IsParsed ∨
          (Trial.of options template provider).NamedAlike
            (Trial.of options (template.withDecls others) provider) subst related) →
      ∃ output' ∈ (specialize options (template.withDecls others) provider).outputs,
        output'.name = output.name ∧
          ∀ key, (∀ related ∈ (Trial.of options template provider).related,
            key = .name related.name → (Trial.of options template provider).NamedAlike
              (Trial.of options (template.withDecls others) provider) subst related) →
            output'.substitution.get? key = output.substitution.get? key) := by
  obtain ⟨primary, targets, htargets, candidate, hcandidate, hrun⟩ := mem_outputs_iff.mp houtput
  obtain ⟨first, subst, final, hfirst, hrest, hfinal, rfl⟩ := Trial.run_eq_ok_iff.mp hrun
  have hbind : (Trial.of options template provider).bindAll primary targets candidate = .ok subst :=
    bind_eq_ok.mpr ⟨first, hfirst, hrest⟩
  have himplements : (Trial.of options template provider).Implements candidate.name subst :=
    ⟨primary, targets, candidate, htargets, Scope.mem_mostStructuredFirst.mpr hcandidate, rfl,
      hbind⟩
  refine ⟨subst, himplements, fun hbound => ?_⟩
  obtain ⟨found, hreordered, hget⟩ :=
    Trial.exists_run_of_reorders hnodup hdecls htargets hbind hfinal hbound
  have htargets' := (Trial.targets_eq_of_reorders hnodup hdecls).trans htargets
  exact ⟨_, mem_outputs_iff.mpr ⟨primary, targets, htargets', candidate, hcandidate, hreordered⟩,
    rfl, hget⟩

/-- Lists of any items, with stacks, towers of stacks, and queues. -/
def towers : SourceFile :=
  .ofTypes "towers" [.of "Item" .emptyInterface, .of "List" (.sliceOf "Item"),
    .of "_Stack" (.sliceOf "Item"), .of "_Tower" (.sliceOf "_Stack"),
    .of "_Queue" (.channelOf "Item")]

/-- The same with the queues first. The towers still come after the stacks. -/
def queuesFirst : List Decl :=
  [.type (.of "Item" .emptyInterface), .type (.of "_Queue" (.channelOf "Item")),
    .type (.of "List" (.sliceOf "Item")), .type (.of "_Stack" (.sliceOf "Item")),
    .type (.of "_Tower" (.sliceOf "_Stack"))]

/-- The same with the towers before the stacks. -/
def towersFirst : List Decl :=
  [.type (.of "Item" .emptyInterface), .type (.of "List" (.sliceOf "Item")),
    .type (.of "_Tower" (.sliceOf "_Stack")), .type (.of "_Stack" (.sliceOf "Item")),
    .type (.of "_Queue" (.channelOf "Item"))]

/-- A list of numbers. -/
def intsOnly : SourceFile :=
  .ofTypes "numbers" [.of "Ints" (.sliceOf "int")]

/-- The queues can be declared anywhere. -/
theorem specialize_reorder_queuesFirst :
    ∃ output ∈ (specialize .default towers intsOnly).outputs,
      output.substitution.keys = [.name "List", .name "Item", .name "_Stack", .name "_Tower",
        .name "_Queue"] ∧
      ∃ output' ∈ (specialize .default (towers.withDecls queuesFirst) intsOnly).outputs,
        output'.name = output.name ∧
          ∀ key, output'.substitution.get? key = output.substitution.get? key := by
  have hmem : (specialize .default towers intsOnly).outputs[0] ∈
      (specialize .default towers intsOnly).outputs := List.getElem_mem _
  have hoptions : (Trial.of .default (towers.withDecls queuesFirst) intsOnly).options =
      (Trial.of .default towers intsOnly).options := rfl
  have hbefore : ∀ related ∈ (Trial.of .default towers intsOnly).related,
      ∀ ident ∈ related.type.names,
        (Trial.of .default (towers.withDecls queuesFirst) intsOnly).namesBefore related ident =
          (Trial.of .default towers intsOnly).namesBefore related ident := by
    decide
  have halike := Trial.namedAlike_of_namesBefore_eq hoptions (by decide) hbefore
  have hdecls : Decl.Reorders Options.default.marker towers.decls queuesFirst :=
    ⟨by decide, by decide⟩
  obtain ⟨subst, -, hreorder⟩ := specialize_reorder (by decide) hdecls hmem
  obtain ⟨output', hmem', hname, hget⟩ :=
    hreorder fun related hrelated _ => .inr (halike subst related hrelated)
  exact ⟨_, hmem, rfl, output', hmem', hname,
    fun key => hget key fun related hrelated _ => halike subst related hrelated⟩

/-- **The order does matter for a type whose definition mentions another related type**: a tower is
    named after the stacks only if they come first. -/
theorem specialize_reorder_towersFirst :
    ¬ ∀ (options : Options) (template provider : SourceFile) (others : List Decl),
      (template.typeDecls.map (·.name)).Nodup → Decl.Reorders options.marker template.decls others →
        ∀ output ∈ (specialize options template provider).outputs,
          ∃ output' ∈ (specialize options (template.withDecls others) provider).outputs,
            output'.name = output.name ∧
              ∀ related ∈ (Trial.of options template provider).related,
                output'.substitution.getName? related.name =
                  output.substitution.getName? related.name := by
  intro h
  have hnames := h .default towers intsOnly towersFirst (by decide) ⟨by decide, by decide⟩
  revert hnames
  decide

end GoStencil
