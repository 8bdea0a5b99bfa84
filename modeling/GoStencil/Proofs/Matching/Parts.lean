import GoStencil.Proofs.Matching.Machine

/-!
# What matching binds

A match binds names and parts of the candidate, where the candidate may be looked through names of
the provider. So what holds of all types of the provider, and of all parts of a type it holds of,
holds of everything that is bound.

* `Hereditary`: the properties that the parts of a type inherit from it.
* `Hereditary.resolve`: looking through a candidate keeps such a property.
* `Matcher.growsBy_of_unify`: a match binds declared names and the universal binding only, to what
  such a property of the candidate holds of.
-/

namespace GoStencil

/-! ## 1. Inherited properties -/

/-- A property that a type hands on to its parts, and a qualified name to its package. -/
structure Hereditary (P : TypeExpr → Prop) : Prop where
  package : ∀ {package ident}, P (.qualified package ident) → P (.name package)
  part : ∀ {type part}, P type → part ∈ type.parts → P part

theorem hereditary_true : Hereditary fun _ => True :=
  ⟨fun _ => trivial, fun _ _ => trivial⟩

/-! ## 2. Candidates -/

namespace Hereditary

variable {P : TypeExpr → Prop} (hP : Hereditary P)

include hP

theorem unparen : ∀ {type : TypeExpr}, P type → P type.unparen
  | .paren _, h => by
    rw [TypeExpr.unparen]
    exact unparen (hP.part h List.mem_cons_self)
  | .name _, h | .qualified _ _, h | .pointer _, h | .array _ _, h | .variadic _, h
  | .channel _ _, h | .map _ _, h | .function _ _, h | .struct _, h | .interface _, h => h

theorem variadicElem {type : TypeExpr} (h : P type) : P type.variadicElem := by
  cases type with
  | «variadic» elem => exact hP.part h List.mem_cons_self
  | _ => exact h

theorem resolveFrom {scope : Scope} (hscope : ∀ decl ∈ scope.types, P decl.type) (steps : Nat) :
    ∀ {seen : List String} {type : TypeExpr}, P type → P (scope.resolveFrom steps seen type) := by
  induction steps with
  | zero =>
    intro seen type h
    exact hP.unparen h
  | succ steps ih =>
    intro seen type h
    have hunparen := hP.unparen h
    unfold Scope.resolveFrom
    split
    · rename_i hname
      rw [hname] at hunparen
      split
      · exact hunparen
      · split
        · rename_i decl hdecl
          exact ih (hscope decl (List.mem_of_find?_eq_some hdecl))
        · exact hunparen
    · exact hunparen

/-- Looking through a candidate keeps what holds of all types of the provider. -/
theorem resolve {scope : Scope} (hscope : ∀ decl ∈ scope.types, P decl.type) {type : TypeExpr}
    (h : P type) : P (scope.resolve type) :=
  hP.resolveFrom hscope _ h

end Hereditary

/-! ## 3. Runs -/

/-- Whether a property holds of the candidate of a goal. -/
def Goal.CandidateHas (P : TypeExpr → Prop) : Goal → Prop
  | .pair _ candidate => P candidate
  | .fail _ => True

theorem Goal.candidateHas_true : ∀ goal : Goal, goal.CandidateHas fun _ => True
  | .pair _ _ => trivial
  | .fail _ => trivial

/-- The goals for the parts of a candidate inherit its properties. -/
theorem Goal.candidateHas_of_mem_ofParts {P : TypeExpr → Prop} (hP : Hereditary P)
    {template candidate : TypeExpr} (hcandidate : P candidate) {goal : Goal}
    (hmem : goal ∈ ofParts template candidate) : goal.CandidateHas P := by
  cases goal with
  | fail => trivial
  | pair left right =>
    rcases mem_parts_of_mem_ofParts hmem with ⟨_, _, _, _, -, rfl, -, rfl⟩ | ⟨-, hright⟩
    · exact hP.package hcandidate
    · exact hP.part hcandidate hright

namespace Matcher

variable {matcher : Matcher} {P : TypeExpr → Prop} {subst mid last : Substitution}

/-- Whether a property holds of all that candidates can be looked through to. -/
def ProviderHas (matcher : Matcher) (P : TypeExpr → Prop) : Prop :=
  ∀ type, P type → P (matcher.resolve type)

theorem providerHas_of_forall (hP : Hereditary P)
    (h : ∀ provider, matcher.provider = some provider → ∀ decl ∈ provider.types, P decl.type) :
    matcher.ProviderHas P := by
  intro type htype
  unfold Matcher.resolve
  split
  · rename_i provider hprovider
    exact hP.resolve (h provider hprovider) htype
  · exact hP.unparen htype

/-- Whether matching may bind a key: a name that the template declares, or what every unnamed empty
    interface stands for. -/
def CanBind (matcher : Matcher) : Binding → Prop
  | .name ident => (matcher.template.lookup ident).isSome = true
  | .universal => True

/-- Whether a new entry of a substitution is of a key that can be bound, to a type with a
    property. -/
def MayAdd (matcher : Matcher) (P : TypeExpr → Prop) (entry : Binding × TypeExpr) : Prop :=
  matcher.CanBind entry.1 ∧ P entry.2

theorem mayAdd_name {ident : String} {decl : TypeDecl} {type : TypeExpr}
    (hdecl : matcher.template.lookup ident = some decl) (h : P type) :
    matcher.MayAdd P (.name ident, type) :=
  ⟨Option.isSome_of_eq_some hdecl, h⟩

theorem mayAdd_universal {type : TypeExpr} (h : P type) : matcher.MayAdd P (.universal, type) :=
  ⟨trivial, h⟩

/-- **A step binds and leaves only what a hereditary property holds of.** -/
theorem Becomes.hereditary (hP : Hereditary P) (hprovider : matcher.ProviderHas P)
    {template candidate : TypeExpr} {goals : List Goal}
    (hstep : matcher.Becomes template candidate subst goals mid) (hcandidate : P candidate) :
    (∀ goal ∈ goals, goal.CandidateHas P) ∧ Substitution.GrowsBy (matcher.MayAdd P) subst mid := by
  cases hstep with
  | bound | undeclared => exact ⟨nofun, .refl _⟩
  | placeholder _ hdecl _ hbind =>
    exact ⟨nofun, .of_bind (mayAdd_name hdecl hcandidate) hbind⟩
  | universal hbind => exact ⟨nofun, .of_bind (mayAdd_universal hcandidate) hbind⟩
  | declared _ hdecl _ hbind =>
    refine ⟨fun goal hmem => ?_, .of_bind (mayAdd_name hdecl hcandidate) hbind⟩
    cases List.mem_singleton.mp hmem
    exact hcandidate
  | paren =>
    refine ⟨fun goal hmem => ?_, .refl _⟩
    cases List.mem_singleton.mp hmem
    exact hcandidate
  | «variadic» =>
    refine ⟨fun goal hmem => ?_, .refl _⟩
    cases List.mem_singleton.mp hmem
    exact hP.variadicElem hcandidate
  | parts =>
    have hgoal := hprovider candidate hcandidate
    exact ⟨fun goal hmem => Goal.candidateHas_of_mem_ofParts hP hgoal hmem, .refl _⟩

theorem Runs.hereditary (hP : Hereditary P) (hprovider : matcher.ProviderHas P)
    {goals : List Goal} (run : matcher.Runs goals subst (.ok last))
    (hgoals : ∀ goal ∈ goals, goal.CandidateHas P) :
    Substitution.GrowsBy (matcher.MayAdd P) subst last := by
  induction run using Runs.okInduction with
  | done => exact .refl _
  | step hstep _ _ ih =>
    obtain ⟨hnew, hmid⟩ := hstep.hereditary hP hprovider (hgoals _ List.mem_cons_self)
    refine hmid.trans (ih fun goal hmem => ?_)
    rcases List.mem_append.mp hmem with hmem | hmem
    · exact hnew goal hmem
    · exact hgoals goal (List.mem_cons_of_mem _ hmem)

/-- **A match adds only what a hereditary property of the candidate holds of.** -/
theorem growsBy_of_unify (hP : Hereditary P) (hprovider : matcher.ProviderHas P)
    {template candidate : TypeExpr} (h : matcher.unify template candidate subst = .ok last)
    (hcandidate : P candidate) : Substitution.GrowsBy (matcher.MayAdd P) subst last := by
  refine (run_of_unify h).hereditary hP hprovider fun goal hmem => ?_
  cases List.mem_singleton.mp hmem
  exact hcandidate

theorem forall_values_of_bind {key : Binding} {type : TypeExpr}
    (h : ∀ value ∈ subst.values, P value) (htype : P type)
    (hbind : subst.bind key type = .ok mid) : ∀ value ∈ mid.values, P value := by
  intro value hmem
  rcases Substitution.mem_values_of_bind hbind hmem with hmem | rfl
  · exact h value hmem
  · exact htype

theorem hereditary_of_unify (hP : Hereditary P) (hprovider : matcher.ProviderHas P)
    {template candidate : TypeExpr} (h : matcher.unify template candidate subst = .ok last)
    (hcandidate : P candidate) (hvalues : ∀ value ∈ subst.values, P value) :
    ∀ value ∈ last.values, P value := by
  obtain ⟨added, he, hadded⟩ := growsBy_of_unify hP hprovider h hcandidate
  intro value hmem
  rw [Substitution.values, he, List.map_append] at hmem
  rcases List.mem_append.mp hmem with hmem | hmem
  · exact hvalues value hmem
  · obtain ⟨entry, hentry, rfl⟩ := List.mem_map.mp hmem
    exact (hadded entry hentry).2

end Matcher

end GoStencil
