import GoStencil.Proofs.Matching.Footprint
import GoStencil.Proofs.Matching.ParenFree
import GoStencil.Proofs.Mentions

/-!
# With and without a provider

A candidate that is the name of a provider type is looked through to the definition where its form
matters. Without a provider such a match fails. So a provider makes more matches succeed, and those
that succeed without it stay as they are.

* `Goal.exists_fail_of_name`: a candidate that is seen as a name has no form to match.
* `Matcher.Becomes.look_through`: a step without a provider is a step with one, if no goal that it
  leaves fails at once.
* `TypeExpr.MentionsOnly.resolve_eq`: a type that mentions no type of the provider has nothing to
  look through.
* `Matcher.unify_look_through`: both for whole matches.
-/

namespace GoStencil

/-- A structural type has no goals but one that fails for a candidate that is seen as a name. -/
theorem Goal.exists_fail_of_name {template : TypeExpr} (hs : template.isStructural = true)
    (ident : String) : ∃ cause, fail cause ∈ ofParts template (.name ident) := by
  cases template with
  | name | paren | «variadic» => cases hs
  | _ => exact ⟨_, List.mem_cons_self⟩

/-- A type that mentions no declared name is all there is to see. -/
theorem TypeExpr.MentionsOnly.resolve_eq {scope : Scope} {type : TypeExpr}
    (h : type.MentionsOnly (scope.lookup · = none)) : scope.resolve type = type.unparen := by
  refine Scope.resolve_eq_unparen fun ident hname => ?_
  have hforeign : (TypeExpr.name ident).MentionsOnly (scope.lookup · = none) :=
    hname ▸ (hereditary_mentionsOnly _).unparen h
  exact hforeign.names ident List.mem_cons_self

namespace Matcher

variable {template provider : Scope} {subst mid last : Substitution}

/-- **A step without a provider is a step with one**, if none of the goals that it leaves fails at
    once: then the candidate has a form of its own, and the provider shows no other. -/
theorem Becomes.look_through {type candidate : TypeExpr} {goals : List Goal}
    (hstep : Becomes ⟨template, none⟩ type candidate subst goals mid)
    (hgoals : Goal.NoneFails goals) :
    Becomes ⟨template, some provider⟩ type candidate subst goals mid := by
  cases hstep with
  | bound hget heq => exact .bound hget heq
  | undeclared hfree hdecl => exact .undeclared hfree hdecl
  | placeholder hfree hdecl hvar hbind => exact .placeholder hfree hdecl hvar hbind
  | declared hfree hdecl hdef hbind => exact .declared hfree hdecl hdef hbind
  | paren => exact .paren ..
  | «variadic» => exact .variadic ..
  | universal hbind => exact .universal hbind
  | parts hs =>
    have hbare : resolve ⟨template, none⟩ candidate = candidate.unparen := rfl
    have hform : ∀ ident, candidate.unparen ≠ .name ident := by
      intro ident hname
      obtain ⟨cause, hfail⟩ := Goal.exists_fail_of_name hs ident
      rw [hbare, hname] at hgoals
      exact hgoals cause hfail
    have hseen : resolve ⟨template, some provider⟩ candidate = candidate.unparen :=
      resolve_of_unparen_ne_name hform
    rw [hbare, ← hseen]
    exact .parts hs ..

/-- A run that succeeds without a provider is a run with one. -/
theorem Runs.look_through {goals : List Goal}
    (run : Runs ⟨template, none⟩ goals subst (.ok last)) :
    Runs ⟨template, some provider⟩ goals subst (.ok last) := by
  induction run using Runs.okInduction with
  | done => exact .done last
  | step hstep next _ ih =>
    have hgoals := fun cause hmem => next.noneFails cause (List.mem_append_left _ hmem)
    exact .step (hstep.look_through hgoals).step_eq ih

/-- **Looking through names is conservative.** A match that succeeds without a provider succeeds
    with one and binds the same types in the same order. If the candidate mentions no type of the
    provider, the provider makes no difference, whether the match succeeds or fails. -/
theorem unify_look_through (template provider : Scope) (type candidate : TypeExpr)
    (subst : Substitution) :
    (∀ last, unify ⟨template, none⟩ type candidate subst = .ok last →
      unify ⟨template, some provider⟩ type candidate subst = .ok last) ∧
    (candidate.MentionsOnly (provider.lookup · = none) →
      unify ⟨template, some provider⟩ type candidate subst =
        unify ⟨template, none⟩ type candidate subst) := by
  constructor
  · intro last h
    have hrun : Runs ⟨template, some provider⟩ [.pair type candidate] subst (.ok last) :=
      (run_of_unify h).look_through
    exact (runs_unify _ type candidate subst).eq hrun
  · intro hforeign
    have hP := TypeExpr.hereditary_mentionsOnly (provider.lookup · = none)
    have hparts : ProviderHas ⟨template, none⟩ (TypeExpr.MentionsOnly (provider.lookup · = none)) :=
      fun _ => hP.unparen
    have hseen : ∀ type : TypeExpr, type.MentionsOnly (provider.lookup · = none) →
        resolve ⟨template, some provider⟩ type = resolve ⟨template, none⟩ type :=
      fun _ htype => htype.resolve_eq
    refine unify_eq_of_resolve_eq hP hparts ?_ hseen hforeign type subst
    exact fun _ => rfl

/-- A template with lists of any items. -/
def listTemplate : Scope :=
  ⟨"list", [], [⟨"Item", false, .emptyInterface, ⟨0, 0⟩⟩,
    ⟨"List", false, .array none (.name "Item"), ⟨0, 0⟩⟩]⟩

/-- A provider that declares lists of numbers. -/
def numbers : Scope :=
  ⟨"numbers", [], [⟨"Numbers", false, .array none (.name "int"), ⟨0, 0⟩⟩]⟩

/-- A list of `Numbers` is bound as it is written, also where `Numbers` could be looked through. The
    name alone is a list only where it is; `Words` is one nowhere, for one and the same reason. -/
theorem unify_look_through_lists :
    ∃ last, last.entries = [(.name "List", .array none (.name "Numbers")),
        (.name "Item", .name "Numbers")] ∧
      unify ⟨listTemplate, some numbers⟩ (.name "List") (.array none (.name "Numbers")) .empty =
        .ok last ∧
      (unify ⟨listTemplate, none⟩ (.name "List") (.name "Numbers") .empty).toBool = false ∧
      (unify ⟨listTemplate, some numbers⟩ (.name "List") (.name "Numbers") .empty).toBool = true ∧
      unify ⟨listTemplate, some numbers⟩ (.name "List") (.name "Words") .empty =
        .error (.shape (.array none (.name "Item")) (.name "Words")) := by
  have hbare : unify ⟨listTemplate, none⟩ (.name "List") (.array none (.name "Numbers")) .empty =
      .ok ⟨[(.name "List", .array none (.name "Numbers")), (.name "Item", .name "Numbers")],
        by decide⟩ := rfl
  have hwords : (TypeExpr.name "Words").MentionsOnly (numbers.lookup · = none) :=
    ⟨by decide, nofun⟩
  refine ⟨_, rfl, (unify_look_through ..).1 _ hbare, rfl, rfl, ?_⟩
  rw [(unify_look_through ..).2 hwords]
  rfl

end Matcher

end GoStencil
