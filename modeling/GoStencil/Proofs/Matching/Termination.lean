import GoStencil.Proofs.Matching.Stability
import GoStencil.Proofs.Resolution

/-!
# Matching terminates

Where a name gives way to its definition neither the template type nor the candidate gets smaller,
and declarations may be recursive. But a name is bound before its definition is entered, and what is
bound stays bound, so no definition is entered twice.

* `Matcher.State`, `Matcher.advance`: a match in steps, none of which is recursive.
* `Matcher.wellFounded_advances`: the steps do not go on for ever.
* `Matcher.Enters`, `Matcher.Trace`: the names whose definitions are entered on the way.
* `Matcher.Enters.bindsName`, `Matcher.Trace.nodup`: a definition is entered only while its name is
  not bound, hence once at most.
* `Matcher.unify_terminates`: all of this for whole matches. A declaration that is to be implemented
  is the exception: its definition is entered even if its name is bound (`enters_bound_target`).
-/

namespace GoStencil

namespace Matcher

/-! ## 1. A match in steps -/

/-- Where a match is. -/
inductive State where
  /-- A declaration of the template is to be implemented by one of the provider. -/
  | implement (target candidate : TypeDecl) (subst : Substitution)
  /-- These goals are left. -/
  | matching (goals : List Goal) (subst : Substitution)

/-- What is bound so far. -/
def State.subst : State → Substitution
  | .implement _ _ subst => subst
  | .matching _ subst => subst

/-- The name of the declaration that is to be implemented. -/
def State.target? : State → Option String
  | .implement target _ _ => some target.name
  | .matching _ _ => none

/-- What the match comes to from here. -/
def State.outcome (matcher : Matcher) : State → Matched
  | .implement target candidate subst => matcher.unifyDecl target candidate subst
  | .matching goals subst => matcher.unifyAll goals subst

/-- Where a match is once its first goal has become others, which come before the rest. -/
def State.next (rest : List Goal) : Except Mismatch (List Goal × Substitution) → Matched ⊕ State
  | .error cause => .inl (.error cause)
  | .ok (goals, mid) => .inr (.matching (goals ++ rest) mid)

/-- One step of a match: its result, or where it is next. -/
def advance (matcher : Matcher) : State → Matched ⊕ State
  | .implement target candidate subst =>
    State.next [] ((subst.bind (.name target.name) (.name candidate.name)).map
      (if target.isPlaceholder then [] else [.pair target.type candidate.type], ·))
  | .matching [] subst => .inl (.ok subst)
  | .matching (.fail cause :: _) _ => .inl (.error cause)
  | .matching (.pair template candidate :: rest) subst =>
    State.next rest (matcher.step template candidate subst)

/-- Whether a match goes from one state to another in one step. -/
def Advances (matcher : Matcher) (before after : State) : Prop :=
  matcher.advance before = .inr after

variable {matcher : Matcher} {before after : State} {goals rest : List Goal}
  {subst mid : Substitution}

theorem State.next_eq_inr_iff {step : Except Mismatch (List Goal × Substitution)} :
    State.next rest step = .inr after ↔
      ∃ goals mid, step = .ok (goals, mid) ∧ after = .matching (goals ++ rest) mid := by
  cases step with
  | error cause =>
    constructor
    · nofun
    · rintro ⟨_, _, h, -⟩
      cases h
  | ok found =>
    constructor
    · intro h
      cases h
      exact ⟨found.1, found.2, rfl, rfl⟩
    · rintro ⟨goals, mid, h, rfl⟩
      cases h
      rfl

theorem advances_pair_iff {template candidate : TypeExpr} :
    matcher.Advances (.matching (.pair template candidate :: rest) subst) after ↔
      ∃ goals mid, matcher.step template candidate subst = .ok (goals, mid) ∧
        after = .matching (goals ++ rest) mid :=
  State.next_eq_inr_iff

theorem advances_implement {target candidate : TypeDecl}
    (h : matcher.Advances (.implement target candidate subst) after) :
    ∃ goals mid, subst.bind (.name target.name) (.name candidate.name) = .ok mid ∧
      after = .matching goals mid := by
  obtain ⟨goals, mid, hmap, rfl⟩ := State.next_eq_inr_iff.mp h
  obtain ⟨_, hbind, e⟩ := map_eq_ok hmap
  cases e
  exact ⟨_, _, hbind, rfl⟩

/-- A step leads to goals, and what is bound stays bound. -/
theorem exists_matching_of_advances (h : matcher.Advances before after) :
    ∃ goals mid, after = .matching goals mid ∧ before.subst ≤ mid := by
  cases before with
  | implement target candidate subst =>
    obtain ⟨goals, mid, hbind, rfl⟩ := advances_implement h
    exact ⟨goals, mid, rfl, Substitution.bind_le hbind⟩
  | matching goals subst =>
    cases goals with
    | nil => cases h
    | cons goal rest =>
      cases goal with
      | fail cause => cases h
      | pair template candidate =>
        obtain ⟨goals, mid, hstep, rfl⟩ := advances_pair_iff.mp h
        exact ⟨goals ++ rest, mid, rfl, (becomes_of_step hstep).le⟩

/-- **A step does not change what the match comes to.** -/
theorem outcome_eq (matcher : Matcher) (state : State) :
    state.outcome matcher = (matcher.advance state).elim id (State.outcome matcher) := by
  cases state with
  | implement target candidate subst =>
    show subst.bind (.name target.name) (.name candidate.name) >>= _ = _
    rw [advance]
    cases subst.bind (.name target.name) (.name candidate.name) with
    | error cause => rfl
    | ok mid =>
      show (if target.isPlaceholder = true then .ok mid
          else matcher.unify target.type candidate.type mid) =
        matcher.unifyAll ((if target.isPlaceholder = true then [] else _) ++ []) mid
      rw [List.append_nil]
      split
      · rfl
      · rw [unifyAll_pair]
  | matching goals subst =>
    cases goals with
    | nil => rfl
    | cons goal rest =>
      cases goal with
      | fail cause => rfl
      | pair template candidate =>
        show matcher.unify template candidate subst >>= matcher.unifyAll rest = _
        rw [unify_eq_step, advance]
        cases matcher.step template candidate subst with
        | error cause => rfl
        | ok next => exact (Goal.matchAll_append _ _ next.1 rest next.2).symm

/-! ## 2. No match goes on for ever -/

/-- Goals that run to a result are left after finitely many steps. -/
theorem Runs.acc {result : Matched} (run : matcher.Runs goals subst result) :
    Acc (fun after before => matcher.Advances before after) (.matching goals subst) := by
  induction run with
  | done | fail => exact .intro _ fun after h => by cases h
  | refuse hstep =>
    refine .intro _ fun after h => ?_
    obtain ⟨_, _, hok, -⟩ := advances_pair_iff.mp h
    rw [hstep] at hok
    cases hok
  | step hstep _ ih =>
    refine .intro _ fun after h => ?_
    obtain ⟨_, _, hok, rfl⟩ := advances_pair_iff.mp h
    rw [hstep] at hok
    cases hok
    exact ih

/-- **No match goes on for ever.** -/
theorem wellFounded_advances (matcher : Matcher) :
    WellFounded fun after before => matcher.Advances before after := by
  have acc_goals : ∀ goals subst, Acc (fun after before => matcher.Advances before after)
      (.matching goals subst) := fun goals subst => (matcher.runs_unifyAll goals subst).acc
  refine ⟨fun state => ?_⟩
  cases state with
  | matching goals subst => exact acc_goals goals subst
  | implement target candidate subst =>
    refine .intro _ fun after h => ?_
    obtain ⟨goals, mid, -, rfl⟩ := advances_implement h
    exact acc_goals ..

/-- What a candidate is looked through to is found by a loop that ends. -/
theorem exists_endsAt_of_provider {provider : Scope} (h : matcher.provider = some provider)
    (type : TypeExpr) :
    ∃ followed, provider.EndsAt (.first type) ⟨matcher.resolve type, followed⟩ := by
  have hresolve : matcher.resolve type = provider.resolve type := by
    rw [resolve, h]
  rw [hresolve]
  exact provider.exists_endsAt_resolve type

/-! ## 3. The definitions that are entered -/

/-- Whether a step enters the definition of a name: it leaves the definition to be matched where the
    name was, or it begins to implement the declaration. -/
inductive Enters (matcher : Matcher) : State → String → State → Prop where
  | name {ident : String} {candidate : TypeExpr} {decl : TypeDecl} {rest : List Goal}
      {subst mid : Substitution} (hdecl : matcher.template.lookup ident = some decl) :
      Enters matcher (.matching (.pair (.name ident) candidate :: rest) subst) ident
        (.matching (.pair decl.type candidate :: rest) mid)
  | target {target candidate : TypeDecl} {subst mid : Substitution} :
      Enters matcher (.implement target candidate subst) target.name
        (.matching [.pair target.type candidate.type] mid)

/-- **A definition is entered only while its name is not bound**, but for the declaration that is to
    be implemented. From then on the name is bound. -/
theorem Enters.bindsName {ident : String} (henters : matcher.Enters before ident after)
    (h : matcher.Advances before after) :
    (before.target? = some ident ∨ before.subst.bindsName ident = false) ∧
      after.subst.bindsName ident = true := by
  cases henters with
  | target =>
    obtain ⟨goals, mid, hbind, hafter⟩ := advances_implement h
    cases hafter
    exact ⟨.inl rfl, Substitution.bindsName_of_bind hbind⟩
  | @name _ _ decl rest _ _ hdecl =>
    obtain ⟨goals, mid, hstep, hafter⟩ := advances_pair_iff.mp h
    obtain ⟨hgoals, rfl⟩ := State.matching.inj hafter
    have hne : goals ≠ [] := by
      rintro rfl
      simpa using congrArg List.length hgoals
    cases becomes_of_step hstep with
    | bound | undeclared | placeholder => exact absurd rfl hne
    | declared hfree _ _ hbind => exact ⟨.inr hfree, Substitution.bindsName_of_bind hbind⟩
    | parts hs => cases hs

/-- Some steps in a row, and the names whose definitions they enter, in order. -/
inductive Trace (matcher : Matcher) : State → List String → State → Prop where
  | done (state : State) : Trace matcher state [] state
  | enter {before mid after : State} {ident : String} {entered : List String}
      (h : matcher.Advances before mid) (henters : matcher.Enters before ident mid)
      (rest : Trace matcher mid entered after) : Trace matcher before (ident :: entered) after
  | pass {before mid after : State} {entered : List String} (h : matcher.Advances before mid)
      (hpass : ∀ ident, ¬ matcher.Enters before ident mid)
      (rest : Trace matcher mid entered after) : Trace matcher before entered after

/-- What is not bound after a step was not bound before it. -/
theorem unbound_of_advances {ident : String} (h : matcher.Advances before after)
    (hfree : after.target? = some ident ∨ after.subst.bindsName ident = false) :
    before.subst.bindsName ident = false := by
  obtain ⟨goals, mid, rfl, hle⟩ := exists_matching_of_advances h
  have hmid : mid.bindsName ident = false := hfree.resolve_left nofun
  refine Bool.eq_false_iff.mpr fun hbound => ?_
  have hlast := Substitution.bindsName_of_le hle hbound
  exact Bool.false_ne_true (hmid.symm.trans hlast)

/-- **No definition is entered twice**, and none of a name that was bound when the match began, but
    for the declaration that is to be implemented. -/
theorem Trace.nodup {entered : List String} (trace : matcher.Trace before entered after) :
    entered.Nodup ∧ ∀ name ∈ entered,
      before.target? = some name ∨ before.subst.bindsName name = false := by
  induction trace with
  | done => exact ⟨List.nodup_nil, nofun⟩
  | enter h henters _ ih =>
    obtain ⟨hnodup, hfree⟩ := ih
    obtain ⟨hbefore, hbound⟩ := henters.bindsName h
    refine ⟨List.nodup_cons.mpr ⟨fun hmem => ?_, hnodup⟩, fun name hmem => ?_⟩
    · -- the name is bound from here on, and what is entered later is not bound yet
      obtain ⟨goals, mid, rfl, -⟩ := exists_matching_of_advances h
      have hmid : mid.bindsName _ = false := (hfree _ hmem).resolve_left nofun
      exact Bool.false_ne_true (hmid.symm.trans hbound)
    · rcases List.mem_cons.mp hmem with rfl | hmem
      · exact hbefore
      · exact .inr (unbound_of_advances h (hfree name hmem))
  | pass h _ _ ih => exact ⟨ih.1, fun name hmem => .inr (unbound_of_advances h (ih.2 name hmem))⟩

/-- A declaration that is implemented is entered, unless its name is bound to another type, or any
    type will do. -/
theorem Trace.mem_of_bind {target candidate : TypeDecl} {entered : List String} {result : Matched}
    (trace : matcher.Trace (.implement target candidate subst) entered after)
    (hlast : matcher.advance after = .inl result)
    (hbind : subst.bind (.name target.name) (.name candidate.name) = .ok mid)
    (hdef : target.isPlaceholder = false) : target.name ∈ entered := by
  have hfirst : matcher.Advances (.implement target candidate subst)
      (.matching [.pair target.type candidate.type] mid) := by
    rw [Advances, advance, hbind, hdef]
    rfl
  cases trace with
  | done =>
    rw [Advances, hlast] at hfirst
    cases hfirst
  | enter _ henters =>
    cases henters
    exact List.mem_cons_self
  | pass h hpass =>
    cases Sum.inr.inj (h.symm.trans hfirst)
    exact absurd .target (hpass target.name)

/-- Every match can be followed to its end, where it has come to its outcome. -/
theorem exists_trace (matcher : Matcher) (state : State) :
    ∃ entered last, matcher.Trace state entered last ∧
      matcher.advance last = .inl (state.outcome matcher) := by
  induction state using matcher.wellFounded_advances.induction with
  | _ state ih =>
    have houtcome := matcher.outcome_eq state
    cases hadvance : matcher.advance state with
    | inl result =>
      rw [hadvance] at houtcome
      exact ⟨[], state, .done state, hadvance.trans (congrArg Sum.inl houtcome.symm)⟩
    | inr next =>
      rw [hadvance] at houtcome
      obtain ⟨entered, last, htrace, hlast⟩ := ih next hadvance
      rw [houtcome]
      by_cases h : ∃ ident, matcher.Enters state ident next
      · obtain ⟨ident, henters⟩ := h
        exact ⟨ident :: entered, last, .enter hadvance henters htrace, hlast⟩
      · exact ⟨entered, last, .pass hadvance (not_exists.mp h) htrace, hlast⟩

/-! ## 4. Whole matches -/

/-- **Matching terminates, and enters no definition twice.** Candidates are looked through by a loop
    that ends; the steps of a match do not go on for ever; and on the way to its result a match
    enters each definition once at most, and only while its name is not bound. A declaration that is
    implemented is the exception: its own definition is entered whenever its name can be bound, also
    when it was bound before. -/
theorem unify_terminates (matcher : Matcher) :
    (∀ provider, matcher.provider = some provider →
      (WellFounded fun after before => provider.Turns before after) ∧
      ∀ type, ∃ followed, provider.EndsAt (.first type) ⟨matcher.resolve type, followed⟩) ∧
    (WellFounded fun after before => matcher.Advances before after) ∧
    (∀ before ident after, matcher.Advances before after → matcher.Enters before ident after →
      before.target? = some ident ∨ before.subst.bindsName ident = false) ∧
    (∀ template candidate subst, ∃ entered last,
      matcher.Trace (.matching [.pair template candidate] subst) entered last ∧
      matcher.advance last = .inl (matcher.unify template candidate subst) ∧
      entered.Nodup ∧ ∀ name ∈ entered, subst.bindsName name = false) ∧
    ∀ target candidate subst, ∃ entered last,
      matcher.Trace (.implement target candidate subst) entered last ∧
      matcher.advance last = .inl (matcher.unifyDecl target candidate subst) ∧
      entered.Nodup ∧ (∀ name ∈ entered, name = target.name ∨ subst.bindsName name = false) ∧
      ∀ mid, subst.bind (.name target.name) (.name candidate.name) = .ok mid →
        target.isPlaceholder = false → target.name ∈ entered := by
  refine ⟨fun provider hprovider => ?_, matcher.wellFounded_advances, ?_, ?_, ?_⟩
  · exact ⟨provider.wellFounded_turns, exists_endsAt_of_provider hprovider⟩
  · intro before ident after h henters
    exact (henters.bindsName h).1
  · intro template candidate subst
    obtain ⟨entered, last, htrace, hlast⟩ :=
      matcher.exists_trace (.matching [.pair template candidate] subst)
    rw [State.outcome, unifyAll_pair] at hlast
    obtain ⟨hnodup, hfree⟩ := htrace.nodup
    refine ⟨entered, last, htrace, hlast, hnodup, fun name hmem => ?_⟩
    exact (hfree name hmem).resolve_left nofun
  · intro target candidate subst
    obtain ⟨entered, last, htrace, hlast⟩ :=
      matcher.exists_trace (.implement target candidate subst)
    obtain ⟨hnodup, hfree⟩ := htrace.nodup
    refine ⟨entered, last, htrace, hlast, hnodup, fun name hmem => ?_, fun mid hbind hdef => ?_⟩
    · rcases hfree name hmem with hname | hname
      · exact .inl (Option.some.inj hname).symm
      · exact .inr hname
    · exact htrace.mem_of_bind hlast hbind hdef

/-- The list of `ofLists` mentions itself, and is entered once. -/
theorem unify_terminates_list :
    ∃ last : Substitution,
      last.entries = [(.name "List", .name "Cell"), (.name "Item", .name "int")] ∧
      ∃ entered final,
        ofLists.Trace (.matching [.pair (.name "List") (.name "Cell")] .empty) entered final ∧
        ofLists.advance final = .inl (.ok last) ∧ entered.Nodup ∧
        ∃ next, ofLists.Advances (.matching [.pair (.name "List") (.name "Cell")] .empty) next ∧
          ofLists.Enters (.matching [.pair (.name "List") (.name "Cell")] .empty) "List" next := by
  obtain ⟨entered, final, htrace, hfinal, hnodup, -⟩ :=
    (unify_terminates ofLists).2.2.2.1 (.name "List") (.name "Cell") .empty
  exact ⟨⟨[(.name "List", .name "Cell"), (.name "Item", .name "int")], by decide⟩, rfl,
    entered, final, htrace, hfinal, hnodup, _, rfl, .name rfl⟩

/-- The list of `ofLists` is bound to the cell. Implementing it by the cell enters its definition
    all the same, and binds the item. -/
theorem enters_bound_target :
    ∃ target candidate, ofLists.template.lookup "List" = some target ∧
      ofLists.provider.bind (·.lookup "Cell") = some candidate ∧
      ∃ bound last : Substitution, bound.entries = [(.name "List", .name "Cell")] ∧
        last.entries = [(.name "List", .name "Cell"), (.name "Item", .name "int")] ∧
        bound.bindsName "List" = true ∧
        ofLists.unifyDecl target candidate bound = .ok last ∧
        ∃ next, ofLists.Advances (.implement target candidate bound) next ∧
          ofLists.Enters (.implement target candidate bound) "List" next := by
  refine ⟨_, _, rfl, rfl, ⟨[(.name "List", .name "Cell")], by decide⟩,
    ⟨[(.name "List", .name "Cell"), (.name "Item", .name "int")], by decide⟩, ?_⟩
  exact ⟨rfl, rfl, rfl, rfl, _, rfl, .target⟩

end Matcher

end GoStencil
