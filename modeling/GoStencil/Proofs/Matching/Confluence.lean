import GoStencil.Proofs.Matching.ParenFree
import GoStencil.Proofs.Matching.Stability

/-!
# Matching is confluent

Of all matches of one name, the first expands its definition against its own candidate; the others
only compare their candidates with that one. So which candidate is looked at depends on the order
of the matches, but candidates that are equivalent and have no parentheses are as good as each
other.

* `Matcher.Settled.congr`: a goal that is settled is settled for every equivalent candidate.
* `Matcher.Completes`: the substitutions on the way to a given one, in whatever order it is reached.
* `Matcher.Completes.run`: from each of them, settled goals run to another of them.
* `Matcher.unify_confluent`: two matches succeed in both orders or in none, with equivalent results.
-/

namespace GoStencil

/-- Whether the candidate of a goal has no parentheses. -/
def Goal.IsParenFree (goal : Goal) : Prop :=
  goal.CandidateHas fun type => type.isParenFree = true

/-- Whether two substitutions bind the same keys, to equivalent types. -/
def Substitution.Agrees (subst other : Substitution) : Prop :=
  ∀ key, Option.Rel (fun a b => a.equivalent b = true) (subst.get? key) (other.get? key)

theorem exists_mem_of_forall₂ {α β : Type} {R : α → β → Prop} {left : List α} {right : List β}
    (h : List.Forall₂ R left right) {b : β} (hb : b ∈ right) : ∃ a ∈ left, R a b := by
  induction h with
  | nil => cases hb
  | @cons a _ _ _ hab _ ih =>
    rcases List.mem_cons.mp hb with rfl | hb
    · exact ⟨a, List.mem_cons_self, hab⟩
    · obtain ⟨found, hmem, hR⟩ := ih hb
      exact ⟨found, List.mem_cons_of_mem _ hmem, hR⟩

namespace Matcher

variable {matcher : Matcher} {final subst mid last : Substitution}

/-! ## 1. Settled goals and equivalent candidates -/

section ParenFree

variable (hprovider : matcher.ProviderHas fun type => type.isParenFree = true)

include hprovider

/-- The goals of a step have no parentheses if the candidate has none. -/
theorem Becomes.isParenFree {template candidate : TypeExpr} {goals : List Goal}
    (hstep : matcher.Becomes template candidate subst goals mid)
    (hfree : candidate.isParenFree = true) : ∀ goal ∈ goals, goal.IsParenFree :=
  (hstep.hereditary hereditary_isParenFree hprovider hfree).1

/-- **A goal that is settled is settled for every equivalent candidate.** -/
theorem Settled.congr {goal other : Goal} (h : matcher.Settled subst goal) (hlike : goal.Like other)
    (hgoal : goal.IsParenFree) (hother : other.IsParenFree) : matcher.Settled subst other := by
  induction h generalizing other with
  | @step template candidate goals hstep hgoals ih =>
    have hparts := hstep.isParenFree hprovider hgoal
    cases hlike with
    | @pair _ _ found heq =>
      cases hstep with
      | bound hget hbound =>
        exact .step (.bound hget (TypeExpr.equivalent_trans hbound heq)) nofun
      | undeclared hfree hdecl =>
        cases TypeExpr.eq_name_of_equivalent hother (TypeExpr.equivalent_comm heq)
        exact .step (.undeclared hfree hdecl) nofun
      | placeholder hfree _ _ hbind | declared hfree _ _ hbind =>
        rw [Substitution.bindsName_of_bind hbind] at hfree
        cases hfree
      | universal hbind =>
        obtain ⟨bound, hget, hbound⟩ := Substitution.exists_get?_of_bind hbind
        exact .step (.universal (bind_of_equivalent hget (TypeExpr.equivalent_trans hbound heq)))
          nofun
      | paren inner =>
        refine .step (.paren ..) fun goal hmem => ?_
        cases List.mem_singleton.mp hmem
        exact ih _ List.mem_cons_self (.pair inner heq) hgoal hother
      | «variadic» elem =>
        refine .step (.variadic ..) fun goal hmem => ?_
        cases List.mem_singleton.mp hmem
        have helems := TypeExpr.equivalent_variadicElem hgoal hother heq
        exact ih _ List.mem_cons_self (.pair elem helems)
          (hereditary_isParenFree.variadicElem hgoal) (hereditary_isParenFree.variadicElem hother)
      | parts hs =>
        have hfound : matcher.Becomes template found subst _ subst := .parts hs ..
        refine .step hfound fun goal hmem => ?_
        obtain ⟨part, hpart, hlike⟩ := exists_mem_of_forall₂
          (Goal.ofParts_like template (resolve_alike hprovider hgoal hother heq)) hmem
        exact ih part hpart hlike (hparts part hpart)
          (hfound.isParenFree hprovider hother goal hmem)

end ParenFree

/-! ## 2. Substitutions on the way to another -/

/-- Whether a substitution is on the way to a final one. What it binds is bound to equivalent types
    in the end; and what is bound later is such that the definitions of the names are settled in
    the end. -/
structure Completes (matcher : Matcher) (final subst : Substitution) : Prop where
  get? : ∀ key bound, subst.get? key = some bound →
    ∃ value, final.get? key = some value ∧ value.equivalent bound = true
  mayAdd : ∀ key value, subst.get? key = none → final.get? key = some value →
    matcher.MayAdd (fun type => type.isParenFree = true) (key, value)
  settled : ∀ ident value decl, subst.bindsName ident = false → final.getName? ident = some value →
    matcher.template.lookup ident = some decl → decl.isPlaceholder = false →
    matcher.Settled final (.pair decl.type value)

/-- What is bound in the end can be bound now, to any equivalent type. -/
theorem Completes.exists_bind {key : Binding} {value candidate : TypeExpr}
    (h : matcher.Completes final subst) (hget : final.get? key = some value)
    (heq : value.equivalent candidate = true) :
    ∃ grown, subst.bind key candidate = .ok grown ∧ matcher.Completes final grown := by
  cases hsubst : subst.get? key with
  | some bound =>
    obtain ⟨found, hfound, hbound⟩ := h.get? key bound hsubst
    rw [hget] at hfound
    cases hfound
    exact ⟨subst, bind_of_equivalent hsubst
      (TypeExpr.equivalent_trans (TypeExpr.equivalent_comm hbound) heq), h⟩
  | none =>
    have hbind : subst.bind key candidate = .ok (subst.extend key candidate hsubst) :=
      Substitution.bind_of_get?_eq_none hsubst
    have hle := Substitution.bind_le hbind
    refine ⟨_, hbind, ⟨fun other bound hother => ?_, fun other found hother => ?_,
      fun ident found decl hother => ?_⟩⟩
    · by_cases e : other = key
      · subst e
        rw [Substitution.get?_of_bind_fresh hsubst hbind] at hother
        cases hother
        exact ⟨value, hget, heq⟩
      · rw [Substitution.get?_of_bind_ne e hbind] at hother
        exact h.get? other bound hother
    · refine h.mayAdd other found (Option.eq_none_iff_forall_ne_some.mpr fun bound hbound => ?_)
      rw [Substitution.get?_of_le hle hbound] at hother
      cases hother
    · refine h.settled ident found decl ?_
      cases hbound : subst.bindsName ident with
      | false => rfl
      | true =>
        rw [Substitution.bindsName_of_le hle hbound] at hother
        cases hother

section ParenFree

variable (hprovider : matcher.ProviderHas fun type => type.isParenFree = true)

include hprovider

/-- **A goal that is settled in the end is worked off on the way there.** -/
theorem Completes.step {template candidate : TypeExpr} (h : matcher.Completes final subst)
    (hsettled : matcher.Settled final (.pair template candidate))
    (hcandidate : candidate.isParenFree = true) :
    ∃ goals mid, matcher.Becomes template candidate subst goals mid ∧
      matcher.Completes final mid ∧ ∀ goal ∈ goals, matcher.Settled final goal := by
  cases hsettled with
  | step hstep hgoals =>
    cases hstep with
    | @bound ident _ value _ hget heq =>
      obtain ⟨grown, hbind, hgrown⟩ := h.exists_bind hget heq
      cases hsubst : subst.getName? ident with
      | some bound =>
        rcases Substitution.bind_eq_ok_iff.mp hbind with ⟨hnone, -⟩ | ⟨found, hfound, hequiv, rfl⟩
        · rw [Substitution.getName?, hnone] at hsubst
          cases hsubst
        · exact ⟨[], grown, .bound hfound hequiv, h, List.forall_mem_nil _⟩
      | none =>
        have hfree : subst.bindsName ident = false :=
          Substitution.bindsName_eq_false_iff.mpr hsubst
        obtain ⟨hcan, hvalue⟩ := h.mayAdd (.name ident) value hsubst hget
        obtain ⟨decl, hdecl⟩ := Option.isSome_iff_exists.mp hcan
        cases hvar : decl.isPlaceholder with
        | true =>
          exact ⟨[], grown, .placeholder hfree hdecl hvar hbind, hgrown, List.forall_mem_nil _⟩
        | false =>
          -- in the end the definition is settled for another candidate, equivalent to this one
          have hdef := h.settled ident value decl hfree hget hdecl hvar
          refine ⟨_, grown, .declared hfree hdecl hvar hbind, hgrown, fun goal hmem => ?_⟩
          cases List.mem_singleton.mp hmem
          exact hdef.congr hprovider (.pair decl.type heq) hvalue hcandidate
    | @undeclared ident _ hfree hdecl =>
      refine ⟨[], subst, .undeclared ?_ hdecl, h, List.forall_mem_nil _⟩
      cases hbound : subst.bindsName ident with
      | false => rfl
      | true =>
        obtain ⟨bound, hget⟩ := Option.isSome_iff_exists.mp hbound
        obtain ⟨value, hvalue, -⟩ := h.get? _ bound hget
        rw [Substitution.bindsName, Substitution.getName?, hvalue] at hfree
        cases hfree
    | placeholder hfree _ _ hbind | declared hfree _ _ hbind =>
      rw [Substitution.bindsName_of_bind hbind] at hfree
      cases hfree
    | universal hbind =>
      obtain ⟨value, hget, heq⟩ := Substitution.exists_get?_of_bind hbind
      obtain ⟨grown, hgrows, hgrown⟩ := h.exists_bind hget heq
      exact ⟨[], grown, .universal hgrows, hgrown, List.forall_mem_nil _⟩
    | paren => exact ⟨_, subst, .paren .., h, hgoals⟩
    | «variadic» => exact ⟨_, subst, .variadic .., h, hgoals⟩
    | parts hs => exact ⟨_, subst, .parts hs .., h, hgoals⟩

/-- **Goals that are settled in the end run on the way there**, to a substitution that is on the
    way there too. -/
theorem Completes.run {goals : List Goal} {result : Matched} (run : matcher.Runs goals subst result)
    (h : matcher.Completes final subst) (hsettled : ∀ goal ∈ goals, matcher.Settled final goal)
    (hfree : ∀ goal ∈ goals, goal.IsParenFree) :
    ∃ last, result = .ok last ∧ matcher.Completes final last := by
  induction run with
  | done subst => exact ⟨subst, rfl, h⟩
  | fail => cases hsettled _ List.mem_cons_self
  | refuse hrefuse =>
    obtain ⟨_, _, hstep, -⟩ :=
      h.step hprovider (hsettled _ List.mem_cons_self) (hfree _ List.mem_cons_self)
    rw [hstep.step_eq] at hrefuse
    cases hrefuse
  | @step template candidate rest goals subst mid result hnext _ ih =>
    have hcandidate : candidate.isParenFree = true := hfree _ List.mem_cons_self
    obtain ⟨_, _, hstep, hmid, hgoals⟩ :=
      h.step hprovider (hsettled _ List.mem_cons_self) hcandidate
    rw [hstep.step_eq] at hnext
    cases hnext
    refine ih hmid (fun goal hmem => ?_) fun goal hmem => ?_
    · rcases List.mem_append.mp hmem with hmem | hmem
      · exact hgoals goal hmem
      · exact hsettled goal (List.mem_cons_of_mem _ hmem)
    · rcases List.mem_append.mp hmem with hmem | hmem
      · exact hstep.isParenFree hprovider hcandidate goal hmem
      · exact hfree goal (List.mem_cons_of_mem _ hmem)

/-! ## 3. Runs in any order -/

/-- A run starts on the way to its own end. -/
theorem Runs.completes {goals : List Goal} (run : matcher.Runs goals subst (.ok last))
    (hfree : ∀ goal ∈ goals, goal.IsParenFree) : matcher.Completes last subst where
  get? key bound hget := ⟨bound, run.extends.get? key bound hget, bound.equivalent_refl⟩
  mayAdd key value hnone hget := by
    rcases (run.hereditary hereditary_isParenFree hprovider hfree).get?_or hget with hold | hnew
    · rw [hnone] at hold
      cases hold
    · exact hnew
  settled := run.settled_of_binds

/-- **The goals of a run can be run in any other order**, and the result is on the way to that of
    the first. -/
theorem Runs.reorder {goals others : List Goal} {result : Matched}
    (run : matcher.Runs goals subst (.ok last)) (hfree : ∀ goal ∈ goals, goal.IsParenFree)
    (hothers : ∀ goal ∈ others, goal ∈ goals) (run' : matcher.Runs others subst result) :
    ∃ other, result = .ok other ∧ matcher.Completes last other :=
  (run.completes hprovider hfree).run hprovider run'
    (fun goal hmem => run.settled (.refl matcher last) goal (hothers goal hmem))
    fun goal hmem => hfree goal (hothers goal hmem)

end ParenFree

/-- Two matches, one after the other, are a run of two goals. -/
theorem runs_unify_bind (matcher : Matcher) (template candidate template' candidate' : TypeExpr)
    (subst : Substitution) :
    matcher.Runs [.pair template candidate, .pair template' candidate'] subst
      (matcher.unify template candidate subst >>= matcher.unify template' candidate') := by
  have hsecond : matcher.unifyAll [.pair template' candidate'] =
      matcher.unify template' candidate' :=
    funext fun subst => matcher.unifyAll_pair ..
  rw [← hsecond]
  exact matcher.runs_unifyAll [.pair template candidate, .pair template' candidate'] subst

/-! ## 4. Matches -/

theorem Completes.agrees {other : Substitution} (h : matcher.Completes last other)
    (h' : matcher.Completes other last) : last.Agrees other := by
  intro key
  cases hlast : last.get? key with
  | none =>
    cases hother : other.get? key with
    | none => exact .none
    | some bound =>
      obtain ⟨value, hvalue, -⟩ := h.get? key bound hother
      rw [hlast] at hvalue
      cases hvalue
  | some bound =>
    obtain ⟨value, hvalue, heq⟩ := h'.get? key bound hlast
    rw [hvalue]
    exact .some (TypeExpr.equivalent_comm heq)

/-- **Matching is confluent.** If no candidate and no type of the provider is in parentheses, two
    matches succeed one after the other in both orders or in none, and the two results agree. -/
theorem unify_confluent (template candidate template' candidate' : TypeExpr) (subst : Substitution)
    (hcandidate : candidate.isParenFree = true) (hcandidate' : candidate'.isParenFree = true)
    (hprovider : ∀ provider, matcher.provider = some provider →
      ∀ decl ∈ provider.types, decl.type.isParenFree = true) :
    ((∃ last, (matcher.unify template candidate subst >>=
        matcher.unify template' candidate') = .ok last) ↔
      ∃ last, (matcher.unify template' candidate' subst >>=
        matcher.unify template candidate) = .ok last) ∧
    ∀ last other,
      (matcher.unify template candidate subst >>= matcher.unify template' candidate') = .ok last →
      (matcher.unify template' candidate' subst >>= matcher.unify template candidate) = .ok other →
      last.Agrees other := by
  have hseen := providerHas_of_forall hereditary_isParenFree hprovider
  have forth := matcher.runs_unify_bind template candidate template' candidate' subst
  have back := matcher.runs_unify_bind template' candidate' template candidate subst
  have hfree : ∀ goal ∈ [Goal.pair template candidate, .pair template' candidate'],
      goal.IsParenFree := by
    simpa [Goal.IsParenFree, Goal.CandidateHas] using ⟨hcandidate, hcandidate'⟩
  have hfree' : ∀ goal ∈ [Goal.pair template' candidate', .pair template candidate],
      goal.IsParenFree := by
    simpa [Goal.IsParenFree, Goal.CandidateHas] using ⟨hcandidate', hcandidate⟩
  have hswap : ∀ {first second : Goal}, ∀ goal ∈ [first, second], goal ∈ [second, first] :=
    fun goal hmem => (List.Perm.swap ..).mem_iff.mp hmem
  refine ⟨⟨?_, ?_⟩, fun last other hlast hother => ?_⟩
  · rintro ⟨last, hlast⟩
    rw [hlast] at forth
    obtain ⟨other, hother, -⟩ := forth.reorder hseen hfree hswap back
    exact ⟨other, hother⟩
  · rintro ⟨last, hlast⟩
    rw [hlast] at back
    obtain ⟨other, hother, -⟩ := back.reorder hseen hfree' hswap forth
    exact ⟨other, hother⟩
  · rw [hlast] at forth
    rw [hother] at back
    obtain ⟨_, hleft, h⟩ := forth.reorder hseen hfree hswap back
    obtain ⟨_, hright, h'⟩ := back.reorder hseen hfree' hswap forth
    cases hleft
    cases hright
    exact h.agrees h'

/-- A list and its items are bound in either order, to the same types. -/
theorem unify_confluent_list :
    ∃ last other,
      (ofLists.unify (.name "List") (.name "Cell") .empty >>=
        ofLists.unify (.name "Item") (.name "int")) = .ok last ∧
      (ofLists.unify (.name "Item") (.name "int") .empty >>=
        ofLists.unify (.name "List") (.name "Cell")) = .ok other ∧
      last.keys = [.name "List", .name "Item"] ∧ other.keys = [.name "Item", .name "List"] ∧
      last.Agrees other := by
  have hprovider : ∀ provider, ofLists.provider = some provider →
      ∀ decl ∈ provider.types, decl.type.isParenFree = true := by
    intro provider h
    cases h
    decide
  have h := unify_confluent (.name "List") (.name "Cell") (.name "Item") (.name "int") .empty rfl
    rfl hprovider
  obtain ⟨other, hother⟩ := h.1.mp ⟨_, rfl⟩
  exact ⟨_, other, rfl, hother, rfl, by cases hother; rfl, h.2 _ other rfl hother⟩

end Matcher

end GoStencil
