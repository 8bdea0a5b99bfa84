import GoStencil.Proofs.Matching.Soundness
import GoStencil.Proofs.Specialization.Order

/-!
# What a trial goes through

A trial that succeeds has a substitution that grows in three stages: the primary target, the other
targets, and the related types.

* `mem_outputs_iff`: the outputs are the results of the trials that succeed.
* `Trial.run_eq_ok_iff`: the three stages of a trial.
* `Trial.bindsName_of_bindRest`, `Trial.bindsName_of_bindRelated`: every template type is bound
  in the end.
-/

namespace GoStencil

/-! ## 1. Stages -/

theorem Matcher.unifyDecl_eq_ok {matcher : Matcher} {target candidate : TypeDecl}
    {subst grown : Substitution} (h : matcher.unifyDecl target candidate subst = .ok grown) :
    ∃ mid, subst.bind (.name target.name) (.name candidate.name) = .ok mid ∧
      (target.isPlaceholder = true ∧ grown = mid ∨
        target.isPlaceholder = false ∧
          matcher.unify target.type candidate.type mid = .ok grown) := by
  obtain ⟨mid, hbind, h⟩ := bind_eq_ok.mp h
  refine ⟨mid, hbind, ?_⟩
  split at h
  · rename_i hvar
    cases h
    exact .inl ⟨hvar, rfl⟩
  · rename_i hdef
    exact .inr ⟨by simpa using hdef, h⟩

theorem Matcher.le_of_unifyDecl {matcher : Matcher} {target candidate : TypeDecl}
    {subst grown : Substitution} (h : matcher.unifyDecl target candidate subst = .ok grown) :
    subst ≤ grown := by
  obtain ⟨mid, hbind, ⟨-, rfl⟩ | ⟨-, hunify⟩⟩ := unifyDecl_eq_ok h
  · exact Substitution.bind_le hbind
  · exact le_trans (Substitution.bind_le hbind) (le_of_unify hunify)

theorem Matcher.bindsName_of_unifyDecl {matcher : Matcher} {target candidate : TypeDecl}
    {subst grown : Substitution} (h : matcher.unifyDecl target candidate subst = .ok grown) :
    grown.bindsName target.name = true := by
  obtain ⟨mid, hbind, ⟨-, rfl⟩ | ⟨-, hunify⟩⟩ := unifyDecl_eq_ok h
  · exact Substitution.bindsName_of_bind hbind
  · exact Substitution.bindsName_of_le (le_of_unify hunify) (Substitution.bindsName_of_bind hbind)

namespace Trial

variable {trial : Trial} {subst last : Substitution} {candidate : TypeDecl}

theorem firstMatch_eq_some {target : TypeDecl} {consumed : List String} {name : String}
    {grown : Substitution} (h : trial.firstMatch target consumed subst = some (name, grown)) :
    ∃ candidate ∈ trial.candidates, candidate.name = name ∧ name ∉ consumed ∧
      trial.matcher.unifyDecl target candidate subst = .ok grown := by
  obtain ⟨candidate, hmem, h⟩ := List.exists_of_findSome?_eq_some h
  split at h
  · cases h
  · rename_i hconsumed
    split at h
    · rename_i grown' hunify
      cases h
      exact ⟨candidate, hmem, rfl, by simpa using hconsumed, hunify⟩
    · cases h

/-- A trial that has implemented all targets names the related types. -/
theorem run_of_bindAll {primary : TypeDecl} {others : List TypeDecl} {rest : Substitution}
    (h : trial.bindAll primary others candidate = .ok rest) :
    trial.run primary others candidate =
      (trial.bindRelated candidate trial.related rest >>= fun final =>
        .ok ⟨candidate.name, trial.file final, final⟩) := by
  rw [run, h]
  rfl

/-- **The stages of a trial.** -/
theorem run_eq_ok_iff {primary : TypeDecl} {others : List TypeDecl} {output : Specialization} :
    trial.run primary others candidate = .ok output ↔
      ∃ first rest final, trial.matcher.unifyDecl primary candidate .empty = .ok first ∧
        trial.bindRest others [candidate.name] first = .ok rest ∧
        trial.bindRelated candidate trial.related rest = .ok final ∧
        output = ⟨candidate.name, trial.file final, final⟩ := by
  unfold run
  constructor
  · intro h
    split at h
    · rename_i rest hbind
      obtain ⟨first, hfirst, hrest⟩ := bind_eq_ok.mp hbind
      obtain ⟨final, hfinal, h⟩ := bind_eq_ok.mp h
      cases h
      exact ⟨first, rest, final, hfirst, hrest, hfinal, rfl⟩
    · cases h
  · rintro ⟨first, rest, final, hfirst, hrest, hfinal, rfl⟩
    have hbind : trial.bindAll primary others candidate = .ok rest :=
      bind_eq_ok.mpr ⟨first, hfirst, hrest⟩
    rw [hbind]
    exact bind_eq_ok.mpr ⟨final, hfinal, rfl⟩

theorem name_of_run {primary : TypeDecl} {others : List TypeDecl} {output : Specialization}
    (h : trial.run primary others candidate = .ok output) : output.name = candidate.name := by
  obtain ⟨_, _, _, -, -, -, rfl⟩ := run_eq_ok_iff.mp h
  rfl

/-- Induction on the stage that implements the other targets. -/
theorem bindRest_induction (trial : Trial) {last : Substitution}
    {motive : List TypeDecl → List String → Substitution → Prop}
    (nil : ∀ consumed, motive [] consumed last)
    (bound : ∀ target rest consumed subst, subst.bindsName target.name = true →
      trial.bindRest rest consumed subst = .ok last → motive rest consumed subst →
      motive (target :: rest) consumed subst)
    (free : ∀ target rest consumed subst candidate grown,
      subst.bindsName target.name = false → candidate ∈ trial.candidates →
      candidate.name ∉ consumed → trial.matcher.unifyDecl target candidate subst = .ok grown →
      trial.bindRest rest (candidate.name :: consumed) grown = .ok last →
      motive rest (candidate.name :: consumed) grown → motive (target :: rest) consumed subst) :
    ∀ {targets : List TypeDecl} {consumed : List String} {subst : Substitution},
      trial.bindRest targets consumed subst = .ok last → motive targets consumed subst
  | [], consumed, subst, h => by
    cases h
    exact nil consumed
  | target :: rest, consumed, subst, h => by
    unfold bindRest at h
    split at h
    · rename_i hbound
      exact bound target rest consumed subst hbound h (bindRest_induction trial nil bound free h)
    · rename_i hfree
      split at h
      · rename_i name grown hmatch
        obtain ⟨candidate, hmem, rfl, hconsumed, hunify⟩ := firstMatch_eq_some hmatch
        exact free target rest consumed subst candidate grown (by simpa using hfree) hmem hconsumed
          hunify h (bindRest_induction trial nil bound free h)
      · cases h

theorem le_of_bindRest {targets : List TypeDecl} {consumed : List String}
    (h : trial.bindRest targets consumed subst = .ok last) : subst ≤ last := by
  refine bindRest_induction trial (motive := fun _ _ subst => subst ≤ last)
    (fun _ => le_refl _) (fun _ _ _ _ _ _ ih => ih) ?_ h
  intro target rest consumed subst candidate grown _ _ _ hunify _ ih
  exact le_trans (Matcher.le_of_unifyDecl hunify) ih

/-- The loop over the other targets binds each of them. -/
theorem bindsName_of_bindRest {targets : List TypeDecl} {consumed : List String}
    (h : trial.bindRest targets consumed subst = .ok last) :
    ∀ target ∈ targets, last.bindsName target.name = true := by
  refine bindRest_induction trial
    (motive := fun targets _ _ => ∀ target ∈ targets, last.bindsName target.name = true)
    nofun ?_ ?_ h
  · intro target rest consumed subst hbound hrest ih other hmem
    rcases List.mem_cons.mp hmem with rfl | hmem
    · exact Substitution.bindsName_of_le (le_of_bindRest hrest) hbound
    · exact ih other hmem
  · intro target rest consumed subst candidate grown _ _ _ hunify hrest ih other hmem
    rcases List.mem_cons.mp hmem with rfl | hmem
    · exact Substitution.bindsName_of_le (le_of_bindRest hrest)
        (Matcher.bindsName_of_unifyDecl hunify)
    · exact ih other hmem

/-- Induction on the stage that names the related types. -/
theorem bindRelated_induction (trial : Trial) (candidate : TypeDecl) {last : Substitution}
    {motive : List TypeDecl → Substitution → Prop} (nil : motive [] last)
    (cons : ∀ decl rest subst grown name,
      name = relatedName trial.options.nameOf decl.name trial.options.marker
        (decl.type.references subst) (Text.capitalize candidate.name) →
      subst.bind (.name decl.name) (.name name) = .ok grown →
      trial.bindRelated candidate rest grown = .ok last → motive rest grown →
      motive (decl :: rest) subst) :
    ∀ {decls : List TypeDecl} {subst : Substitution},
      trial.bindRelated candidate decls subst = .ok last → motive decls subst
  | [], subst, h => by
    cases h
    exact nil
  | decl :: rest, subst, h => by
    unfold bindRelated at h
    dsimp only at h
    split at h
    · rename_i grown hbind
      exact cons decl rest subst grown _ rfl hbind h
        (bindRelated_induction trial candidate nil cons h)
    · cases h

theorem le_of_bindRelated {decls : List TypeDecl}
    (h : trial.bindRelated candidate decls subst = .ok last) : subst ≤ last :=
  bindRelated_induction trial candidate (motive := fun _ subst => subst ≤ last) (le_refl _)
    (fun _ _ _ _ _ _ hbind _ ih => le_trans (Substitution.bind_le hbind) ih) h

theorem bindsName_of_bindRelated {decls : List TypeDecl}
    (h : trial.bindRelated candidate decls subst = .ok last) :
    ∀ decl ∈ decls, last.bindsName decl.name = true := by
  refine bindRelated_induction trial candidate
    (motive := fun decls _ => ∀ decl ∈ decls, last.bindsName decl.name = true) nofun ?_ h
  intro decl rest subst grown name _ hbind hrest ih other hmem
  rcases List.mem_cons.mp hmem with rfl | hmem
  · exact Substitution.bindsName_of_le (le_of_bindRelated hrest)
      (Substitution.bindsName_of_bind hbind)
  · exact ih other hmem

end Trial

/-! ## 2. Outputs -/

variable {options : Options} {template provider : SourceFile} {output : Specialization}

theorem Specialized.mem_outputs_ofTrials {results : List (Except Mismatch Specialization)} :
    output ∈ (ofTrials results).outputs ↔ .ok output ∈ results := by
  simp only [ofTrials, List.mem_filterMap]
  constructor
  · rintro ⟨result, hmem, h⟩
    cases result with
    | ok found =>
      cases h
      exact hmem
    | error cause => cases h
  · intro hmem
    exact ⟨.ok output, hmem, rfl⟩

/-- **The outputs are the results of the trials that succeed**, one trial for each type of the
    provider. -/
theorem mem_outputs_iff :
    output ∈ (specialize options template provider).outputs ↔
      ∃ primary others, (Trial.of options template provider).targets = primary :: others ∧
        ∃ candidate ∈ provider.scope.types,
          (Trial.of options template provider).run primary others candidate = .ok output := by
  unfold specialize
  dsimp only
  cases htargets : (Trial.of options template provider).targets with
  | nil => simp
  | cons primary others =>
    dsimp only
    rw [Specialized.mem_outputs_ofTrials, List.mem_map]
    constructor
    · rintro ⟨candidate, hmem, hrun⟩
      exact ⟨primary, others, rfl, candidate, Scope.mem_mostStructuredFirst.mp hmem, hrun⟩
    · rintro ⟨_, _, e, candidate, hmem, hrun⟩
      cases e
      exact ⟨candidate, Scope.mem_mostStructuredFirst.mpr hmem, hrun⟩

theorem Trial.mem_targets_of {decl : TypeDecl} :
    decl ∈ (Trial.of options template provider).targets ↔
      decl ∈ template.scope.types ∧ isRelated options.marker decl.name = false := by
  show decl ∈ template.scope.mostStructuredFirst _ ↔ _
  rw [Scope.mem_mostStructuredFirst, List.mem_filter]
  simp

theorem Trial.mem_related_of {decl : TypeDecl} :
    decl ∈ (Trial.of options template provider).related ↔
      decl ∈ template.scope.types ∧ isRelated options.marker decl.name = true := by
  show decl ∈ template.scope.types.filter _ ↔ _
  rw [List.mem_filter]
  simp

/-! ## 3. Files of types -/

/-- The declaration of a type under a name. -/
def TypeDecl.of (name : String) (type : TypeExpr) : TypeDecl :=
  ⟨name, false, type, ⟨0, 0⟩⟩

/-- A file that declares types and nothing else. -/
def SourceFile.ofTypes (package : String) (decls : List TypeDecl) : SourceFile :=
  ⟨package, [], decls.map .type, none⟩

/-- A slice of a named type. -/
def TypeExpr.sliceOf (elem : String) : TypeExpr :=
  .array none (.name elem)

/-- A channel of a named type. -/
def TypeExpr.channelOf (value : String) : TypeExpr :=
  .channel .both (.name value)

end GoStencil
