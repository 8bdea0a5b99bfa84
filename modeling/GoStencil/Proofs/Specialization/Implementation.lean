import GoStencil.Proofs.Specialization.Trials

/-!
# Outputs implement the template

Every type that the template leaves to the provider is bound in an output to something that
implements its definition, judged by all of the bindings of that output together.

* `Realizes`: what a template type may be bound to.
* `Trial.realizes_of_run`: a trial that succeeds has bound each target like that.
* `specialize_implements`: so has every output of a run.
-/

namespace GoStencil

/-- What a template type may be bound to under a substitution. -/
inductive Realizes (subst : Substitution) (provider : Scope) (decl : TypeDecl) (type : TypeExpr) :
    Prop where
  /-- A type variable is bound to any type. -/
  | placeholder (hvar : decl.isPlaceholder = true)
  /-- A template type that was come upon in the definition of another is bound to a type that
      implements its definition. -/
  | expression (h : Implements subst provider.resolve decl.type type)
  /-- A template type that was given a provider type is bound to its name. -/
  | declared {candidate : TypeDecl} (hmem : candidate ∈ provider.types)
      (htype : type = .name candidate.name)
      (h : Implements subst provider.resolve decl.type candidate.type)

namespace Trial

variable {trial : Trial} {subst mid last final : Substitution}

/-! ## 1. Only declared names are bound -/

theorem bindsDeclared_of_unifyDecl {target candidate : TypeDecl} {grown : Substitution}
    (htarget : target ∈ trial.template.scope.types)
    (h : trial.matcher.unifyDecl target candidate subst = .ok grown)
    (hsubst : trial.matcher.BindsDeclared subst) : trial.matcher.BindsDeclared grown := by
  have hdecl : (trial.matcher.template.lookup target.name).isSome = true :=
    Option.isSome_iff_exists.mpr ⟨target, Scope.lookup_of_mem htarget⟩
  obtain ⟨mid, hbind, ⟨-, rfl⟩ | ⟨-, hunify⟩⟩ := Matcher.unifyDecl_eq_ok h
  · exact hsubst.bind hdecl hbind
  · exact Matcher.bindsDeclared_of_unify hunify (hsubst.bind hdecl hbind)

theorem bindsDeclared_of_bindRest {targets : List TypeDecl} {consumed : List String}
    (h : trial.bindRest targets consumed subst = .ok last) :
    (∀ target ∈ targets, target ∈ trial.template.scope.types) →
      trial.matcher.BindsDeclared subst → trial.matcher.BindsDeclared last := by
  refine bindRest_induction trial (motive := fun targets _ subst =>
    (∀ target ∈ targets, target ∈ trial.template.scope.types) →
      trial.matcher.BindsDeclared subst → trial.matcher.BindsDeclared last) ?_ ?_ ?_ h
  · intro _ _ hlast
    exact hlast
  · intro target rest consumed subst _ _ ih hmem hsubst
    exact ih (fun other hother => hmem other (List.mem_cons_of_mem _ hother)) hsubst
  · intro target rest consumed subst candidate grown _ _ _ hunify _ ih hmem hsubst
    exact ih (fun other hother => hmem other (List.mem_cons_of_mem _ hother))
      (bindsDeclared_of_unifyDecl (hmem target List.mem_cons_self) hunify hsubst)

theorem bindsDeclared_of_bindRelated {decls : List TypeDecl} {candidate : TypeDecl}
    (h : trial.bindRelated candidate decls subst = .ok last) :
    (∀ decl ∈ decls, decl ∈ trial.template.scope.types) →
      trial.matcher.BindsDeclared subst → trial.matcher.BindsDeclared last := by
  refine bindRelated_induction trial candidate (motive := fun decls subst =>
    (∀ decl ∈ decls, decl ∈ trial.template.scope.types) →
      trial.matcher.BindsDeclared subst → trial.matcher.BindsDeclared last) ?_ ?_ h
  · intro _ hlast
    exact hlast
  · intro decl rest subst grown name _ hbind _ ih hmem hsubst
    have hdecl : (trial.matcher.template.lookup decl.name).isSome = true :=
      Option.isSome_iff_exists.mpr
        ⟨decl, Scope.lookup_of_mem (hmem decl List.mem_cons_self)⟩
    exact ih (fun other hother => hmem other (List.mem_cons_of_mem _ hother))
      (hsubst.bind hdecl hbind)

/-! ## 2. Targets are realized -/

/-- Whether one substitution realizes the template types that an earlier one does not bind. -/
def Realized (trial : Trial) (final subst grown : Substitution) : Prop :=
  ∀ decl ∈ trial.template.scope.types, subst.bindsName decl.name = false →
    ∀ type, grown.getName? decl.name = some type → Realizes final trial.provider decl type

theorem realized_refl (trial : Trial) (final subst : Substitution) :
    trial.Realized final subst subst := by
  intro decl _ hfree type hget
  rw [Substitution.bindsName, hget] at hfree
  cases hfree

theorem Realized.trans (h : trial.Realized final subst mid) (hle : mid ≤ last)
    (h' : trial.Realized final mid last) : trial.Realized final subst last := by
  intro decl hmem hfree type hget
  cases hmid : mid.getName? decl.name with
  | none => exact h' decl hmem (by rw [Substitution.bindsName, hmid]; rfl) type hget
  | some bound =>
    have hbound : last.getName? decl.name = some bound := Substitution.get?_of_le hle hmid
    rw [hget] at hbound
    cases hbound
    exact h decl hmem hfree type hmid

theorem realized_of_justified (h : trial.matcher.Justified final subst last) :
    trial.Realized final subst last := by
  intro decl hmem hfree type hget
  by_cases hvar : decl.isPlaceholder = true
  · exact .placeholder hvar
  · exact .expression (h _ type decl hfree hget (Scope.lookup_of_mem hmem) (by simpa using hvar))

/-- A target that is given a provider type is bound to its name, and implemented by it. -/
theorem implements_of_unifyDecl {target candidate : TypeDecl} {grown : Substitution}
    (h : trial.matcher.unifyDecl target candidate subst = .ok grown) (hle : grown ≤ final)
    (hfinal : trial.matcher.BindsDeclared final) (hdef : target.isPlaceholder = false) :
    Implements final trial.provider.resolve target.type candidate.type := by
  obtain ⟨mid, hbind, ⟨hvar, -⟩ | ⟨-, hunify⟩⟩ := Matcher.unifyDecl_eq_ok h
  · rw [hdef] at hvar
    cases hvar
  · exact Matcher.implements_of_unify hunify hle hfinal

theorem getName?_of_unifyDecl {target candidate : TypeDecl} {grown : Substitution}
    (hfree : subst.bindsName target.name = false)
    (h : trial.matcher.unifyDecl target candidate subst = .ok grown) :
    grown.getName? target.name = some (.name candidate.name) := by
  obtain ⟨mid, hbind, hrest⟩ := Matcher.unifyDecl_eq_ok h
  have hmid : mid.getName? target.name = some (.name candidate.name) :=
    Substitution.get?_of_bind_fresh (Substitution.bindsName_eq_false_iff.mp hfree) hbind
  rcases hrest with ⟨-, rfl⟩ | ⟨-, hunify⟩
  · exact hmid
  · exact Substitution.get?_of_le (Matcher.le_of_unify hunify) hmid

theorem realized_of_unifyDecl {target candidate : TypeDecl} {grown : Substitution}
    (htarget : target ∈ trial.template.scope.types)
    (hfree : subst.bindsName target.name = false) (hcandidate : candidate ∈ trial.provider.types)
    (h : trial.matcher.unifyDecl target candidate subst = .ok grown) (hle : grown ≤ final)
    (hfinal : trial.matcher.BindsDeclared final) : trial.Realized final subst grown := by
  intro decl hmem hdecl type hget
  by_cases hvar : decl.isPlaceholder = true
  · exact .placeholder hvar
  have hdef : decl.isPlaceholder = false := by simpa using hvar
  by_cases e : decl.name = target.name
  · -- the name stands for the target, as the scope has no other declaration of it
    obtain rfl := Scope.eq_of_name_eq hmem htarget e
    rw [getName?_of_unifyDecl hfree h] at hget
    cases hget
    exact .declared hcandidate rfl (implements_of_unifyDecl h hle hfinal hdef)
  · obtain ⟨mid, hbind, ⟨-, rfl⟩ | ⟨-, hunify⟩⟩ := Matcher.unifyDecl_eq_ok h
    · rw [Substitution.getName?_of_bind_ne e hbind] at hget
      exact realized_refl trial final subst decl hmem hdecl type hget
    · have hmid : mid.bindsName decl.name = false := by
        rw [Substitution.bindsName, Substitution.getName?_of_bind_ne e hbind]
        exact hdecl
      exact realized_of_justified (Matcher.justified_of_unify hunify hle hfinal) decl hmem hmid
        type hget

theorem realized_of_bindRest {targets : List TypeDecl} {consumed : List String}
    (hcandidates : ∀ candidate ∈ trial.candidates, candidate ∈ trial.provider.types)
    (h : trial.bindRest targets consumed subst = .ok last) (hle : last ≤ final)
    (hfinal : trial.matcher.BindsDeclared final) :
    (∀ target ∈ targets, target ∈ trial.template.scope.types) →
      trial.Realized final subst last := by
  refine bindRest_induction trial (motive := fun targets _ subst =>
    (∀ target ∈ targets, target ∈ trial.template.scope.types) →
      trial.Realized final subst last) ?_ ?_ ?_ h
  · intro _ _
    exact realized_refl trial final last
  · intro target rest consumed subst _ _ ih hmem
    exact ih fun other hother => hmem other (List.mem_cons_of_mem _ hother)
  · intro target rest consumed subst candidate grown hfree hcandidate _ hunify hrest ih hmem
    have hgrown := le_of_bindRest hrest
    have hfirst := realized_of_unifyDecl (hmem target List.mem_cons_self) hfree
      (hcandidates candidate hcandidate) hunify (le_trans hgrown hle) hfinal
    exact hfirst.trans hgrown (ih fun other hother => hmem other (List.mem_cons_of_mem _ hother))

/-- **A trial that succeeds realizes every target**, and the primary target by its candidate. -/
theorem realizes_of_run {options : Options} {template provider : SourceFile} {primary : TypeDecl}
    {others : List TypeDecl} {candidate : TypeDecl} {output : Specialization}
    (htargets : (Trial.of options template provider).targets = primary :: others)
    (hcandidate : candidate ∈ provider.scope.types)
    (h : (Trial.of options template provider).run primary others candidate = .ok output) :
    (∀ decl ∈ primary :: others, ∃ type, output.substitution.getName? decl.name = some type ∧
        Realizes output.substitution provider.scope decl type) ∧
      output.substitution.getName? primary.name = some (.name output.name) ∧
      output.name = candidate.name ∧
      (primary.isPlaceholder = false →
        Implements output.substitution provider.scope.resolve primary.type candidate.type) := by
  obtain ⟨first, rest, final, hfirst, hrest, hfinal, rfl⟩ := run_eq_ok_iff.mp h
  have htypes : ∀ decl ∈ primary :: others, decl ∈ template.scope.types := by
    intro decl hmem
    rw [← htargets] at hmem
    exact (mem_targets_of.mp hmem).1
  have hothers : ∀ decl ∈ others, decl ∈ template.scope.types := fun decl hmem =>
    htypes decl (List.mem_cons_of_mem _ hmem)
  have hrelated : ∀ decl ∈ (Trial.of options template provider).related,
      decl ∈ template.scope.types := fun decl hmem => (mem_related_of.mp hmem).1
  have hprimary := htypes primary List.mem_cons_self
  have hdeclared : (Trial.of options template provider).matcher.BindsDeclared final :=
    bindsDeclared_of_bindRelated hfinal hrelated
      (bindsDeclared_of_bindRest hrest hothers
        (bindsDeclared_of_unifyDecl hprimary hfirst (Matcher.bindsDeclared_empty _)))
  have hle := le_of_bindRest hrest
  have hle' := le_of_bindRelated hfinal
  have hrealized : (Trial.of options template provider).Realized final .empty rest :=
    (realized_of_unifyDecl hprimary rfl hcandidate hfirst (le_trans hle hle') hdeclared).trans hle
      (realized_of_bindRest (fun _ hmem => Scope.mem_mostStructuredFirst.mp hmem) hrest hle'
        hdeclared hothers)
  refine ⟨fun decl hmem => ?_, ?_, rfl, fun hdef => ?_⟩
  · have hbound : rest.bindsName decl.name = true := by
      rcases List.mem_cons.mp hmem with rfl | hmem
      · exact Substitution.bindsName_of_le hle (Matcher.bindsName_of_unifyDecl hfirst)
      · exact bindsName_of_bindRest hrest decl hmem
    obtain ⟨type, hget⟩ := Option.isSome_iff_exists.mp hbound
    exact ⟨type, Substitution.get?_of_le hle' hget,
      hrealized decl (htypes decl hmem) rfl type hget⟩
  · exact Substitution.get?_of_le (le_trans hle hle') (getName?_of_unifyDecl rfl hfirst)
  · exact implements_of_unifyDecl hfirst (le_trans hle hle') hdeclared hdef

end Trial

/-! ## 3. Runs -/

/-- **Every output implements the template.** All template types without the marker are bound,
    each to a type that implements its definition under the bindings of the output; one of them is
    bound to the provider type that the output is named after. -/
theorem specialize_implements {options : Options} {template provider : SourceFile}
    {output : Specialization} (h : output ∈ (specialize options template provider).outputs) :
    (∀ decl ∈ template.scope.types, isRelated options.marker decl.name = false →
      ∃ type, output.substitution.getName? decl.name = some type ∧
        Realizes output.substitution provider.scope decl type) ∧
    ∃ primary ∈ template.scope.types, isRelated options.marker primary.name = false ∧
      ∃ candidate ∈ provider.scope.types, candidate.name = output.name ∧
        output.substitution.getName? primary.name = some (.name candidate.name) ∧
        (primary.isPlaceholder = false →
          Implements output.substitution provider.scope.resolve primary.type candidate.type) := by
  obtain ⟨primary, others, htargets, candidate, hcandidate, hrun⟩ := mem_outputs_iff.mp h
  obtain ⟨hall, hprimary, hname, himpl⟩ := Trial.realizes_of_run htargets hcandidate hrun
  constructor
  · intro decl hmem hmarker
    refine hall decl ?_
    rw [← htargets]
    exact Trial.mem_targets_of.mpr ⟨hmem, hmarker⟩
  · have hmem : primary ∈ (Trial.of options template provider).targets := by
      rw [htargets]
      exact List.mem_cons_self
    obtain ⟨htype, hmarker⟩ := Trial.mem_targets_of.mp hmem
    exact ⟨primary, htype, hmarker, candidate, hcandidate, hname.symm, hname ▸ hprimary, himpl⟩

/-- A tree that holds items of any type. -/
def treeDecl : TypeDecl :=
  ⟨"Tree", false, .struct (.cons ["left", "right"] (.pointer (.name "Tree")) none
    (.cons ["item"] (.name "Item") none .nil)), ⟨0, 0⟩⟩

/-- A template that declares a tree and the type of its items. -/
def treeTemplate : SourceFile :=
  ⟨"tree", [], [.type treeDecl, .type ⟨"Item", false, .emptyInterface, ⟨0, 0⟩⟩], none⟩

/-- A tree of counters, with a field more than the template asks for. -/
def counterTree : SourceFile :=
  ⟨"counter", [], [.type ⟨"Counts", false, .struct (.cons ["item", "weight"] (.name "int") none
    (.cons ["left", "right"] (.pointer (.name "Counts")) none .nil)), ⟨0, 0⟩⟩,
    .type ⟨"Weight", false, .name "int", ⟨0, 0⟩⟩], none⟩

/-- The recursive tree is bound to a struct that has its fields in another order. -/
theorem specialize_implements_tree :
    ∃ output ∈ (specialize .default treeTemplate counterTree).outputs,
      ∃ type, output.substitution.getName? "Tree" = some type ∧
        Realizes output.substitution counterTree.scope treeDecl type := by
  have hmem := List.head_mem (l := (specialize .default treeTemplate counterTree).outputs)
    (by decide)
  exact ⟨_, hmem, (specialize_implements hmem).1 treeDecl (by decide) (by decide)⟩

end GoStencil
