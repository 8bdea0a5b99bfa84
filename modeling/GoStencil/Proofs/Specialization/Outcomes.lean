import GoStencil.Proofs.Specialization.Order
import GoStencil.Proofs.Specialization.Trials
import Mathlib.Data.List.Forall2

/-!
# What a run says about each candidate

Each type of the provider is tried once, in the order of the candidates. A run that has outputs
says nothing else; a run without outputs has one error for each candidate, which tells why its
trial failed.

* `Matcher.isRejection_of_unify`: the reason for which a match fails is not a rejected candidate.
* `Trial.rejects_of_run`: a trial that fails rejects its candidate, for one such reason.
* `specialize_accounts`: the outcome of a run for its candidates.
-/

namespace GoStencil

/-! ## 1. Reasons -/

/-- Whether a failure is that of a candidate, and not the reason behind it. -/
def Mismatch.isRejection : Mismatch → Bool
  | .rejected .. => true
  | _ => false

theorem Mismatch.rootCause_of_isRejection {cause : Mismatch} (h : cause.isRejection = false) :
    cause.rootCause = cause := by
  cases cause with
  | rejected => cases h
  | _ => rfl

theorem Substitution.isRejection_of_bind {subst : Substitution} {key : Binding} {type : TypeExpr}
    {cause : Mismatch} (h : subst.bind key type = .error cause) : cause.isRejection = false := by
  obtain ⟨bound, rfl⟩ := eq_inconsistent_of_bind h
  rfl

theorem map_eq_error {ε α β : Type} {x : Except ε α} {f : α → β} {e : ε}
    (h : x.map f = .error e) : x = .error e := by
  cases x with
  | error cause =>
    cases h
    rfl
  | ok a => cases h

/-- A sequence of two computations fails when the first does, or the second. -/
theorem bind_eq_error {ε α β : Type} {first : Except ε α} {next : α → Except ε β} {e : ε}
    (h : first >>= next = .error e) :
    first = .error e ∨ ∃ a, first = .ok a ∧ next a = .error e := by
  cases first with
  | error cause =>
    cases h
    exact .inl rfl
  | ok a => exact .inr ⟨a, rfl, h⟩

/-! ## 2. Matches that fail -/

namespace Goal

/-- Whether no goal is to fail because of a rejected candidate. -/
def NoneRejects (goals : List Goal) : Prop :=
  ∀ cause, fail cause ∈ goals → cause.isRejection = false

theorem NoneRejects.tail {goal : Goal} {goals : List Goal} (h : NoneRejects (goal :: goals)) :
    NoneRejects goals :=
  fun cause hmem => h cause (List.mem_cons_of_mem _ hmem)

theorem NoneRejects.append {goals rest : List Goal} (h : NoneRejects goals)
    (h' : NoneRejects rest) : NoneRejects (goals ++ rest) := by
  intro cause hmem
  rcases List.mem_append.mp hmem with hmem | hmem
  · exact h cause hmem
  · exact h' cause hmem

theorem noneRejects_nil : NoneRejects [] := by
  intro cause hmem
  cases hmem

theorem NoneRejects.pair {goals : List Goal} (h : NoneRejects goals)
    (template candidate : TypeExpr) : NoneRejects (pair template candidate :: goals) := by
  intro cause hmem
  cases hmem with
  | tail _ hmem => exact h cause hmem

theorem noneRejects_pair (template candidate : TypeExpr) :
    NoneRejects [Goal.pair template candidate] :=
  noneRejects_nil.pair template candidate

theorem noneRejects_fail {cause : Mismatch} (h : cause.isRejection = false) :
    NoneRejects [fail cause] := by
  intro other hmem
  cases List.mem_singleton.mp hmem
  exact h

theorem noneRejects_ofEntries (template candidate : FieldList) :
    NoneRejects (ofEntries template candidate) := by
  unfold ofEntries
  split
  · intro cause hmem
    obtain ⟨_, -, e⟩ := List.mem_map.mp hmem
    cases e
  · exact noneRejects_fail rfl

theorem noneRejects_ofFields (template candidate : FieldList) :
    NoneRejects (ofFields template candidate) := by
  unfold ofFields
  split
  · exact noneRejects_fail rfl
  · intro cause hmem
    obtain ⟨entry, -, e⟩ := List.mem_map.mp hmem
    unfold ofField at e
    split at e
    · cases e
    · cases e
      rfl

theorem noneRejects_ofParts (template candidate : TypeExpr) :
    NoneRejects (ofParts template candidate) := by
  unfold ofParts
  split
  · refine NoneRejects.pair ?_ _ _
    split
    · exact noneRejects_nil
    · exact noneRejects_fail rfl
  · exact noneRejects_pair _ _
  · split
    · exact noneRejects_pair _ _
    · exact noneRejects_fail rfl
  · split
    · exact noneRejects_fail rfl
    · exact noneRejects_pair _ _
  · exact (noneRejects_ofEntries _ _).append (noneRejects_ofEntries _ _)
  · exact noneRejects_fail rfl
  · exact (noneRejects_pair _ _).pair _ _
  · exact noneRejects_ofFields _ _
  · exact noneRejects_fail rfl

end Goal

namespace Matcher

variable {matcher : Matcher} {subst : Substitution}

theorem Becomes.noneRejects {template candidate : TypeExpr} {goals : List Goal}
    {grown : Substitution} (h : matcher.Becomes template candidate subst goals grown) :
    Goal.NoneRejects goals := by
  cases h with
  | bound | undeclared | placeholder | universal => exact Goal.noneRejects_nil
  | declared | paren | «variadic» => exact Goal.noneRejects_pair _ _
  | parts => exact Goal.noneRejects_ofParts _ _

theorem isRejection_of_step {template candidate : TypeExpr} {cause : Mismatch}
    (h : matcher.step template candidate subst = .error cause) : cause.isRejection = false := by
  cases template with
  | name ident =>
    rw [step] at h
    split at h
    · exact Substitution.isRejection_of_bind (map_eq_error h)
    · split at h
      · split at h
        · cases h
        · cases h
          rfl
      · exact Substitution.isRejection_of_bind (map_eq_error h)
  | interface members =>
    cases members with
    | nil => exact Substitution.isRejection_of_bind (map_eq_error h)
    | cons => cases h
  | _ => cases h

/-- A run fails at one of its goals or in one of its steps. -/
theorem Runs.isRejection {goals : List Goal} {result : Matched} {cause : Mismatch}
    (h : matcher.Runs goals subst result) (hgoals : Goal.NoneRejects goals)
    (herror : result = .error cause) : cause.isRejection = false := by
  induction h with
  | done => cases herror
  | fail =>
    cases herror
    exact hgoals _ List.mem_cons_self
  | refuse hstep =>
    cases herror
    exact isRejection_of_step hstep
  | step hstep _ ih =>
    exact ih ((becomes_of_step hstep).noneRejects.append hgoals.tail) herror

/-- **The reason for which a match fails is not a rejected candidate.** -/
theorem isRejection_of_unify {template candidate : TypeExpr} {cause : Mismatch}
    (h : matcher.unify template candidate subst = .error cause) : cause.isRejection = false :=
  (matcher.runs_unify template candidate subst).isRejection (Goal.noneRejects_pair _ _) h

theorem isRejection_of_unifyDecl {target candidate : TypeDecl} {cause : Mismatch}
    (h : matcher.unifyDecl target candidate subst = .error cause) : cause.isRejection = false := by
  rcases bind_eq_error h with hbind | ⟨mid, -, h⟩
  · exact Substitution.isRejection_of_bind hbind
  · split at h
    · cases h
    · exact isRejection_of_unify h

end Matcher

/-! ## 3. Trials that fail -/

/-- Whether an error rejects a candidate as the implementation of one of some targets, for a reason
    that is no rejection itself. -/
def Rejects (targets : List String) (candidate : TypeDecl) (error : Mismatch) : Prop :=
  ∃ target ∈ targets, ∃ cause, error = .rejected candidate.name target cause ∧
    error.rootCause = cause ∧ cause.isRejection = false

namespace Trial

variable {trial : Trial} {candidate : TypeDecl} {cause : Mismatch}

theorem rejects_of_isRejection {targets : List String} {target : String} (hmem : target ∈ targets)
    (h : cause.isRejection = false) :
    Rejects targets candidate (.rejected candidate.name target cause) :=
  ⟨target, hmem, cause, rfl, Mismatch.rootCause_of_isRejection h, h⟩

theorem isRejection_of_bindRest : ∀ {targets : List TypeDecl} {consumed : List String}
    {subst : Substitution}, trial.bindRest targets consumed subst = .error cause →
      cause.isRejection = false
  | [], _, _, h => by cases h
  | target :: rest, consumed, subst, h => by
    unfold bindRest at h
    split at h
    · exact isRejection_of_bindRest h
    · split at h
      · exact isRejection_of_bindRest h
      · cases h
        rfl

theorem isRejection_of_bindAll {primary : TypeDecl} {others : List TypeDecl}
    (h : trial.bindAll primary others candidate = .error cause) : cause.isRejection = false := by
  rcases bind_eq_error h with hprimary | ⟨first, -, hrest⟩
  · exact Matcher.isRejection_of_unifyDecl hprimary
  · exact isRejection_of_bindRest hrest

theorem rejects_of_bindRelated : ∀ {decls : List TypeDecl} {subst : Substitution},
    trial.bindRelated candidate decls subst = .error cause →
      Rejects (decls.map (·.name)) candidate cause
  | [], _, h => by cases h
  | decl :: rest, subst, h => by
    unfold bindRelated at h
    dsimp only at h
    split at h
    · obtain ⟨target, hmem, found⟩ := rejects_of_bindRelated h
      exact ⟨target, List.mem_cons_of_mem _ hmem, found⟩
    · rename_i hbind
      cases h
      exact rejects_of_isRejection List.mem_cons_self (Substitution.isRejection_of_bind hbind)

/-- **A trial that fails rejects its candidate**, as the implementation of the primary target or for
    the name of a related type. -/
theorem rejects_of_run {primary : TypeDecl} {others : List TypeDecl}
    (h : trial.run primary others candidate = .error cause) :
    Rejects (primary.name :: trial.related.map (·.name)) candidate cause := by
  unfold run at h
  split at h
  · rcases bind_eq_error h with hrelated | ⟨final, -, hwrite⟩
    · obtain ⟨target, hmem, found⟩ := rejects_of_bindRelated hrelated
      exact ⟨target, List.mem_cons_of_mem _ hmem, found⟩
    · cases hwrite
  · rename_i hbind
    cases h
    exact rejects_of_isRejection List.mem_cons_self (isRejection_of_bindAll hbind)

/-- A trial that succeeds binds the primary target to its candidate, first of all. -/
theorem head?_entries_of_run {primary : TypeDecl} {others : List TypeDecl}
    {output : Specialization} (h : trial.run primary others candidate = .ok output) :
    output.substitution.entries.head? = some (.name primary.name, .name output.name) := by
  obtain ⟨first, rest, final, hfirst, hrest, hfinal, rfl⟩ := run_eq_ok_iff.mp h
  obtain ⟨mid, hbind, hmid⟩ := Matcher.unifyDecl_eq_ok hfirst
  have hentries : mid.entries = [(.name primary.name, .name candidate.name)] := by
    rcases Substitution.bind_eq_ok_iff.mp hbind with ⟨-, hentries⟩ | ⟨_, hget, -⟩
    · exact hentries
    · cases hget
  have hle : mid ≤ final := by
    have hfirst : mid ≤ first := by
      rcases hmid with ⟨-, rfl⟩ | ⟨-, hunify⟩
      · exact le_refl _
      · exact Matcher.le_of_unify hunify
    exact le_trans hfirst (le_trans (le_of_bindRest hrest) (le_of_bindRelated hfinal))
  obtain ⟨added, hadded⟩ := hle
  rw [← hadded, hentries]
  rfl

end Trial

/-! ## 4. Outcomes -/

namespace Specialized

/-- What an outcome says about some candidates, which are tried as the implementation of a target:
    the outputs are those of some of them, in their order; there are no errors beside outputs; and
    where there are no outputs each candidate has its error. -/
structure Accounts (result : Specialized) (primary : String) (related : List String)
    (candidates : List TypeDecl) : Prop where
  outputs : (result.outputs.map (·.name)).Sublist (candidates.map (·.name))
  implements : ∀ output ∈ result.outputs,
    output.substitution.entries.head? = some (.name primary, .name output.name)
  no_errors : result.outputs ≠ [] → result.errors = []
  errors : result.outputs = [] → List.Forall₂ (Rejects (primary :: related)) candidates
    result.errors

variable {run : TypeDecl → Except Mismatch Specialization}

theorem sublist_outputs_ofTrials
    (hname : ∀ candidate output, run candidate = .ok output → output.name = candidate.name) :
    ∀ candidates : List TypeDecl,
      ((ofTrials (candidates.map run)).outputs.map (·.name)).Sublist (candidates.map (·.name))
  | [] => .slnil
  | candidate :: rest => by
    have hrest := sublist_outputs_ofTrials hname rest
    unfold ofTrials at hrest ⊢
    rw [List.map_cons, List.filterMap_cons, List.map_cons]
    cases hrun : run candidate with
    | error cause => exact hrest.cons _
    | ok output =>
      rw [List.map_cons, hname candidate output hrun]
      exact hrest.cons_cons _

theorem errors_ofTrials_of_outputs_ne {results : List (Except Mismatch Specialization)}
    (h : (ofTrials results).outputs ≠ []) : (ofTrials results).errors = [] := by
  unfold ofTrials at h ⊢
  exact if_neg (by simpa using h)

/-- Where no trial succeeds, each has its error. -/
theorem forall₂_errors_ofTrials : ∀ candidates : List TypeDecl,
    (ofTrials (candidates.map run)).outputs = [] →
      List.Forall₂ (fun candidate error => run candidate = .error error) candidates
        (ofTrials (candidates.map run)).errors
  | [], _ => .nil
  | candidate :: rest, h => by
    have ih := forall₂_errors_ofTrials rest
    unfold ofTrials at h ih ⊢
    dsimp only at h ih ⊢
    rw [List.map_cons, List.filterMap_cons] at h
    cases hrun : run candidate with
    | ok output =>
      rw [hrun] at h
      cases h
    | error cause =>
      rw [hrun] at h
      have herrors := ih h
      rw [List.map_cons, List.filterMap_cons, List.filterMap_cons, hrun]
      dsimp only at h ⊢
      rw [h] at herrors ⊢
      exact .cons hrun herrors

end Specialized

/-- **Every type of the provider is accounted for.** Without a target there is one error, which says
    so. Otherwise the candidates are the types of the provider, the most structured first, the
    primary target is the first of the most structured ones, and the outcome accounts for each
    candidate. -/
theorem specialize_accounts (options : Options) (template provider : SourceFile) :
    let targets := (firstByName template.typeDecls).filter fun decl =>
      !isRelated options.marker decl.name
    let related := (firstByName template.typeDecls).filter fun decl =>
      isRelated options.marker decl.name
    let result := specialize options template provider
    (targets = [] → result.outputs = [] ∧ result.errors = [.noTemplateTypes]) ∧
      (targets ≠ [] → ∃ primary candidates,
        IsFirstGreatest template.scope.declComplexity targets primary ∧
        IsStableSort provider.scope.declComplexity (firstByName provider.typeDecls) candidates ∧
        result.Accounts primary.name (related.map (·.name)) candidates) := by
  intro targets related result
  have htargets : IsStableSort template.scope.declComplexity targets
      (Trial.of options template provider).targets :=
    template.scope.isStableSort_mostStructuredFirst targets
  have hrelated : (Trial.of options template provider).related = related :=
    List.filter_congr fun _ _ => Bool.not_not _
  constructor
  · intro hnone
    have hempty : (Trial.of options template provider).targets = [] :=
      List.perm_nil.mp (hnone ▸ htargets.perm)
    simp only [result, specialize, hempty, and_self]
  · intro hsome
    cases h : (Trial.of options template provider).targets with
    | nil => exact absurd (List.nil_perm.mp (h ▸ htargets.perm)) hsome
    | cons primary others =>
      have hresult : result = Specialized.ofTrials
          ((Trial.of options template provider).candidates.map
            ((Trial.of options template provider).run primary others)) := by
        simp only [result, specialize, h]
      refine ⟨primary, (Trial.of options template provider).candidates,
        (h ▸ htargets).isFirstGreatest_head,
        provider.scope.isStableSort_mostStructuredFirst provider.scope.types, ?_⟩
      rw [hresult]
      exact {
        outputs := Specialized.sublist_outputs_ofTrials (fun _ _ => Trial.name_of_run) _
        implements := by
          intro output hmem
          obtain ⟨candidate, -, hrun⟩ :=
            List.mem_map.mp (Specialized.mem_outputs_ofTrials.mp hmem)
          exact Trial.head?_entries_of_run hrun
        no_errors := Specialized.errors_ofTrials_of_outputs_ne
        errors := fun hnone => (Specialized.forall₂_errors_ofTrials _ hnone).imp
          fun _ _ hrun => hrelated ▸ Trial.rejects_of_run hrun }

end GoStencil
