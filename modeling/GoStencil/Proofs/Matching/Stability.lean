import GoStencil.Proofs.Matching.Parts

/-!
# A match is stable

The first time that a name is matched its definition is matched as well; from then on only what the
name is bound to counts. So the same match, made again, takes other steps than before. It binds
nothing any more, and that is what `Matcher.Settled` says of its goals.

* `Matcher.Offers`: the types that a match can find in a candidate and in the provider.
* `Matcher.unify_eq_of_settled`: a match whose goal is settled leaves the substitution as it is.
* `Matcher.Runs.settled`: the goals of a run are settled at its end, and ever after.
* `Matcher.unify_stable`: what a match adds, and that it adds nothing when it is made again.
-/

namespace GoStencil

/-! ## 1. What a match can find -/

/-- Whether a type occurs in another one, as the whole of it or as a part at any depth. -/
inductive TypeExpr.OccursIn (whole : TypeExpr) : TypeExpr → Prop where
  | whole : OccursIn whole whole
  | part {type part : TypeExpr} (h : OccursIn whole type) (hpart : part ∈ type.parts) :
      OccursIn whole part

namespace Matcher

variable {matcher : Matcher} {subst mid last later : Substitution}

/-- The types in which a match looks for what it binds. -/
inductive Source (matcher : Matcher) (candidate : TypeExpr) : TypeExpr → Prop where
  | candidate : Source matcher candidate candidate
  | provider {provider : Scope} {decl : TypeDecl} (hprovider : matcher.provider = some provider)
      (hdecl : decl ∈ provider.types) : Source matcher candidate decl.type

/-- What a match can find in its candidate and in the provider: the types that occur there, and the
    names of the packages that occur there. -/
inductive Offers (matcher : Matcher) (candidate : TypeExpr) : TypeExpr → Prop where
  | type {source type : TypeExpr} (hsource : matcher.Source candidate source)
      (h : source.OccursIn type) : Offers matcher candidate type
  | package {source : TypeExpr} {package ident : String} (hsource : matcher.Source candidate source)
      (h : source.OccursIn (.qualified package ident)) : Offers matcher candidate (.name package)

theorem hereditary_offers (matcher : Matcher) (candidate : TypeExpr) :
    Hereditary (matcher.Offers candidate) where
  package h := by
    cases h with
    | type hsource h => exact .package hsource h
  part h hpart := by
    cases h with
    | type hsource h => exact .type hsource (h.part hpart)
    | package => cases hpart

theorem providerHas_offers (matcher : Matcher) (candidate : TypeExpr) :
    matcher.ProviderHas (matcher.Offers candidate) :=
  providerHas_of_forall (matcher.hereditary_offers candidate) fun _ hprovider _ hdecl =>
    .type (.provider hprovider hdecl) .whole

/-! ## 2. Settled goals -/

/-- Whether a substitution meets a goal as it stands: the goal is worked off by steps that bind
    nothing. -/
inductive Settled (matcher : Matcher) (subst : Substitution) : Goal → Prop where
  | step {template candidate : TypeExpr} {goals : List Goal}
      (h : matcher.Becomes template candidate subst goals subst)
      (hgoals : ∀ goal ∈ goals, Settled matcher subst goal) :
      Settled matcher subst (.pair template candidate)

theorem bind_of_equivalent {key : Binding} {bound candidate : TypeExpr}
    (hget : subst.get? key = some bound) (heq : bound.equivalent candidate = true) :
    subst.bind key candidate = .ok subst :=
  Substitution.bind_eq_ok_iff.mpr (.inr ⟨bound, hget, heq, rfl⟩)

/-- Whatever a step can do it does. -/
theorem Becomes.step_eq {template candidate : TypeExpr} {goals : List Goal}
    (h : matcher.Becomes template candidate subst goals mid) :
    matcher.step template candidate subst = .ok (goals, mid) := by
  cases h with
  | bound hget heq =>
    have hbound : subst.bindsName _ = true := Option.isSome_of_eq_some hget
    rw [step, if_pos hbound, bind_of_equivalent hget heq]
    rfl
  | undeclared hfree hdecl => simp [step, hfree, hdecl]
  | placeholder hfree hdecl hvar hbind =>
    simp only [step, hfree, hdecl, hbind, hvar, Bool.false_eq_true, if_false, if_true]
    rfl
  | declared hfree hdecl hdef hbind =>
    simp only [step, hfree, hdecl, hbind, hdef, Bool.false_eq_true, if_false]
    rfl
  | paren => rfl
  | «variadic» => rfl
  | universal hbind =>
    rw [TypeExpr.emptyInterface, step, hbind]
    rfl
  | parts hs =>
    cases template with
    | interface members =>
      cases members with
      | nil => cases hs
      | cons => rfl
    | name | paren | «variadic» => cases hs
    | _ => rfl

/-- A settled goal runs and leaves the substitution as it is. -/
theorem Settled.runs {goal : Goal} (h : matcher.Settled subst goal) :
    matcher.Runs [goal] subst (.ok subst) := by
  induction h with
  | @step template candidate goals h hgoals ih =>
    suffices hall : matcher.Runs goals subst (.ok subst) by
      refine .step h.step_eq ?_
      rwa [List.append_nil]
    clear h hgoals
    induction goals with
    | nil => exact .done subst
    | cons goal goals hrest =>
      refine (ih goal List.mem_cons_self).append (hrest fun goal hmem => ?_)
      exact ih goal (List.mem_cons_of_mem _ hmem)

theorem unify_eq_of_settled {template candidate : TypeExpr}
    (h : matcher.Settled subst (.pair template candidate)) :
    matcher.unify template candidate subst = .ok subst :=
  (matcher.runs_unify template candidate subst).eq h.runs

/-! ## 3. Runs settle their goals -/

/-- Whether a substitution has all bindings of an earlier one, and no others but of keys that can
    be bound. -/
structure Extends (matcher : Matcher) (subst later : Substitution) : Prop where
  get? : ∀ key bound, subst.get? key = some bound → later.get? key = some bound
  canBind : ∀ key bound, later.get? key = some bound →
    subst.get? key = some bound ∨ matcher.CanBind key

theorem Extends.refl (matcher : Matcher) (subst : Substitution) : matcher.Extends subst subst :=
  ⟨fun _ _ h => h, fun _ _ h => .inl h⟩

theorem Extends.trans (h : matcher.Extends subst mid) (h' : matcher.Extends mid later) :
    matcher.Extends subst later where
  get? key bound hget := h'.get? key bound (h.get? key bound hget)
  canBind key bound hget := by
    rcases h'.canBind key bound hget with hmid | hkey
    · exact h.canBind key bound hmid
    · exact .inr hkey

/-- A bind leaves every later substitution a type that is equivalent to its own. -/
theorem Extends.exists_get? {key : Binding} {type : TypeExpr} (h : matcher.Extends mid later)
    (hbind : subst.bind key type = .ok mid) :
    ∃ bound, later.get? key = some bound ∧ bound.equivalent type = true := by
  obtain ⟨bound, hget, heq⟩ := Substitution.exists_get?_of_bind hbind
  exact ⟨bound, h.get? key bound hget, heq⟩

theorem extends_of_growsBy {P : TypeExpr → Prop}
    (h : Substitution.GrowsBy (matcher.MayAdd P) subst later) : matcher.Extends subst later where
  get? key bound hget := by
    obtain ⟨added, he, -⟩ := h
    exact Substitution.get?_of_le ⟨added, he.symm⟩ hget
  canBind key bound hget := (h.get?_or hget).imp id And.left

/-- **A step settles its goal**, once the goals that it leaves are settled. A name that was
    expanded is bound from then on, so its definition is not asked for again. -/
theorem Becomes.settles {template candidate : TypeExpr} {goals : List Goal}
    (hstep : matcher.Becomes template candidate subst goals mid)
    (hlater : matcher.Extends mid later) (hgoals : ∀ goal ∈ goals, matcher.Settled later goal) :
    matcher.Settled later (.pair template candidate) := by
  cases hstep with
  | bound hget heq => exact .step (.bound (hlater.get? _ _ hget) heq) nofun
  | @undeclared ident _ hfree hdecl =>
    refine .step (.undeclared (Substitution.bindsName_eq_false_iff.mpr ?_) hdecl) nofun
    refine Option.eq_none_iff_forall_ne_some.mpr fun bound hget => ?_
    rcases hlater.canBind _ bound hget with hget | hkey
    · rw [Substitution.bindsName_eq_false_iff.mp hfree] at hget
      cases hget
    · rw [CanBind, hdecl] at hkey
      cases hkey
  | placeholder _ _ _ hbind | declared _ _ _ hbind =>
    obtain ⟨bound, hget, heq⟩ := hlater.exists_get? hbind
    exact .step (.bound hget heq) nofun
  | paren => exact .step (.paren ..) hgoals
  | «variadic» => exact .step (.variadic ..) hgoals
  | universal hbind =>
    obtain ⟨bound, hget, heq⟩ := hlater.exists_get? hbind
    exact .step (.universal (bind_of_equivalent hget heq)) nofun
  | parts hs => exact .step (.parts hs ..) hgoals

/-- What is settled stays so. -/
theorem Settled.of_extends {goal : Goal} (h : matcher.Settled subst goal)
    (hlater : matcher.Extends subst later) : matcher.Settled later goal := by
  induction h with
  | step hstep _ ih => exact hstep.settles hlater ih

theorem Runs.extends {goals : List Goal} (run : matcher.Runs goals subst (.ok last)) :
    matcher.Extends subst last :=
  extends_of_growsBy (run.hereditary hereditary_true (fun _ _ => trivial)
    fun goal _ => goal.candidateHas_true)

/-- **A run settles its goals**, for every later substitution. -/
theorem Runs.settled {goals : List Goal} (run : matcher.Runs goals subst (.ok last))
    (hlater : matcher.Extends last later) : ∀ goal ∈ goals, matcher.Settled later goal := by
  induction run using Runs.okInduction with
  | done => nofun
  | @step template candidate rest goals subst mid hstep next _ ih =>
    intro goal hmem
    rcases List.mem_cons.mp hmem with rfl | hmem
    · exact hstep.settles (next.extends.trans hlater)
        fun goal hgoal => ih goal (List.mem_append_left _ hgoal)
    · exact ih goal (List.mem_append_right _ hmem)

/-- The definitions of the names that a run binds are settled at its end. -/
theorem Runs.settled_of_binds {goals : List Goal} (run : matcher.Runs goals subst (.ok last)) :
    ∀ ident value decl, subst.bindsName ident = false → last.getName? ident = some value →
      matcher.template.lookup ident = some decl → decl.isPlaceholder = false →
      matcher.Settled last (.pair decl.type value) := by
  induction run using Runs.okInduction with
  | done =>
    intro ident value decl hfree hget
    rw [Substitution.bindsName, hget] at hfree
    cases hfree
  | @step template candidate rest goals subst mid hstep next _ ih =>
    intro ident value decl hfree hget hdecl hdef
    cases hmid : mid.getName? ident with
    | none =>
      have hunbound := Substitution.bindsName_eq_false_iff.mpr hmid
      exact ih ident value decl hunbound hget hdecl hdef
    | some bound =>
      have hbound : last.getName? ident = some bound := Substitution.get?_of_le next.le hmid
      rw [hget] at hbound
      cases hbound
      exact next.settled (.refl matcher last) _
        (List.mem_append_left _ (hstep.mem_goals_of_binds hfree hmid hdecl hdef))

/-! ## 4. Matches -/

/-- **A match is stable.** It only adds bindings at the end, of names that the template declares and
    of the universal binding, to types that it finds in the candidate or in the provider; and
    whatever is bound later, making it again changes nothing. -/
theorem unify_stable {template candidate : TypeExpr}
    (h : matcher.unify template candidate subst = .ok last) :
    (∃ added, last.entries = subst.entries ++ added ∧
      ∀ entry ∈ added, matcher.CanBind entry.1 ∧ matcher.Offers candidate entry.2) ∧
    ∀ later, matcher.Extends last later → matcher.unify template candidate later = .ok later := by
  constructor
  · exact growsBy_of_unify (matcher.hereditary_offers candidate)
      (matcher.providerHas_offers candidate) h (.type .candidate .whole)
  · intro later hlater
    exact unify_eq_of_settled ((run_of_unify h).settled hlater _ List.mem_cons_self)

/-- A template with a list of items of any type, and a provider with a list of numbers. -/
def ofLists : Matcher where
  template := ⟨"list", [],
    [⟨"List", false, .struct (.cons ["next"] (.pointer (.name "List")) none
      (.cons ["item"] (.name "Item") none .nil)), ⟨0, 0⟩⟩,
    ⟨"Item", false, .emptyInterface, ⟨0, 0⟩⟩]⟩
  provider := some ⟨"cell", [],
    [⟨"Cell", false, .struct (.cons ["item"] (.name "int") none
      (.cons ["next"] (.pointer (.name "Cell")) none .nil)), ⟨0, 0⟩⟩]⟩

/-- The list expands its definition once; afterwards it is the cell that it is bound to. -/
theorem unify_stable_list :
    ∃ last, ofLists.unify (.name "List") (.name "Cell") .empty = .ok last ∧
      last.entries = [(.name "List", .name "Cell"), (.name "Item", .name "int")] ∧
      ∀ later, ofLists.Extends last later →
        ofLists.unify (.name "List") (.name "Cell") later = .ok later :=
  have h : ofLists.unify (.name "List") (.name "Cell") .empty = .ok
      ⟨[(.name "List", .name "Cell"), (.name "Item", .name "int")], by decide⟩ := rfl
  ⟨_, h, rfl, (unify_stable h).2⟩

end Matcher

end GoStencil
