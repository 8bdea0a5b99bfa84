import GoStencil.Proofs.Matching.Stability

/-!
# What a match touches

Matching a type looks at the names in it, at the names in the definitions of these, and so on. It
reads and binds no other keys; and while the candidate decides what a key is bound to, it does not
decide which keys are bound.

* `TypeExpr.subgoals`: the template types that are matched next when a type is.
* `Scope.Reaches`: the keys that matching a type may look at.
* `Matcher.exists_unify_of_agreesOn`: substitutions that agree on these keys match alike.
* `Matcher.bindsSame_of_unify`: which keys a match binds does not depend on the candidate.
* `Matcher.Settled.binds_of_reaches`: a match binds every declared name that it reaches.
* `Matcher.unify_eq_of_resolve_eq`: a match depends on the template only by what names are looked
  up to, and on the provider only by how candidates are looked through.
-/

namespace GoStencil

/-! ## 1. Keys within reach -/

/-- The template types that are matched next when a type is, in order. The members of an interface
    are listed although a match that gets to them fails. -/
def TypeExpr.subgoals : TypeExpr → List TypeExpr
  | .name _ => []
  | .qualified package _ => [.name package]
  | .function params results => params.entryTypes ++ results.entryTypes
  | .struct fields => fields.effectiveEntries.map Prod.snd
  | type => type.parts

/-- Whether matching a type may look at a key: the names in the type and the universal binding, and
    whatever the definitions of the names reach. -/
inductive Scope.Reaches (scope : Scope) : TypeExpr → Binding → Prop where
  | name (ident : String) : Reaches scope (.name ident) (.name ident)
  | universal : Reaches scope .emptyInterface .universal
  | subgoal {type part : TypeExpr} {key : Binding} (hpart : part ∈ type.subgoals)
      (h : Reaches scope part key) : Reaches scope type key
  | definition {ident : String} {decl : TypeDecl} {key : Binding}
      (hdecl : scope.lookup ident = some decl) (hdef : decl.isPlaceholder = false)
      (h : Reaches scope decl.type key) : Reaches scope (.name ident) key

namespace Goal

/-- The template type of a goal. -/
def template? : Goal → Option TypeExpr
  | pair template _ => some template
  | fail _ => none

/-- Whether meeting a goal may look at a key. -/
def Reaches (scope : Scope) : Goal → Binding → Prop
  | pair template _, key => scope.Reaches template key
  | fail _, _ => False

theorem mem_subgoals_of_mem_ofParts {template candidate left right : TypeExpr}
    (h : pair left right ∈ ofParts template candidate) : left ∈ template.subgoals := by
  unfold ofParts at h
  split at h
  case h_1 package ident foundPackage found =>
    rcases List.mem_cons.mp h with e | h
    · cases e
      exact List.mem_cons_self
    · split at h
      · cases h
      · cases List.mem_singleton.mp h
  case h_2 elem found =>
    cases List.mem_singleton.mp h
    exact List.mem_cons_self
  case h_3 length elem foundLength found =>
    split at h <;> cases List.mem_singleton.mp h
    exact List.mem_cons_self
  case h_4 direction value foundDirection found =>
    split at h <;> cases List.mem_singleton.mp h
    exact List.mem_cons_self
  case h_5 params results foundParams foundResults =>
    rcases List.mem_append.mp h with h | h
    · exact List.mem_append_left _ (List.of_mem_zip (mem_ofEntries h).2).1
    · exact List.mem_append_right _ (List.of_mem_zip (mem_ofEntries h).2).1
  case h_6 => cases List.mem_singleton.mp h
  case h_7 key value foundKey found =>
    rcases List.mem_cons.mp h with e | h
    · cases e
      exact List.mem_cons_self
    · cases List.mem_singleton.mp h
      exact List.mem_cons_of_mem _ List.mem_cons_self
  case h_8 fields found =>
    obtain ⟨name, field, hmem, -, -⟩ := mem_ofFields h
    exact List.mem_map.mpr ⟨(name, left), hmem, rfl⟩
  case h_9 => cases List.mem_singleton.mp h

/-- Whether no goal of a list fails as it stands. -/
def NoneFails (goals : List Goal) : Prop :=
  ∀ cause, fail cause ∉ goals

theorem map_template?_ofEntries {template candidate : FieldList}
    (h : NoneFails (ofEntries template candidate)) :
    (ofEntries template candidate).map template? = template.entryTypes.map some := by
  unfold ofEntries at h ⊢
  split
  · rename_i hlen
    have hle : template.entryTypes.length ≤ candidate.entryTypes.length := by
      rw [FieldList.length_entryTypes, FieldList.length_entryTypes]
      omega
    calc (List.map _ (template.entryTypes.zip candidate.entryTypes)).map template?
        = ((template.entryTypes.zip candidate.entryTypes).map Prod.fst).map some := by
          rw [List.map_map, List.map_map]
          rfl
      _ = template.entryTypes.map some := by rw [List.map_fst_zip hle]
  · rename_i hlen
    rw [if_neg hlen] at h
    exact absurd List.mem_cons_self (h _)

theorem map_template?_ofFields {template candidate : FieldList}
    (h : NoneFails (ofFields template candidate)) :
    (ofFields template candidate).map template? =
      (template.effectiveEntries.map Prod.snd).map some := by
  unfold ofFields at h ⊢
  split
  · rename_i hfew
    rw [if_pos hfew] at h
    exact absurd List.mem_cons_self (h _)
  · rename_i hmany
    rw [if_neg hmany] at h
    rw [List.map_map, List.map_map]
    refine List.map_congr_left fun entry hmem => ?_
    have hentry : ∀ cause, ofField candidate entry ≠ fail cause := fun cause e =>
      h cause (e ▸ List.mem_map_of_mem hmem)
    rw [Function.comp_apply, Function.comp_apply]
    unfold ofField at hentry ⊢
    split
    · rfl
    · rename_i hfind
      rw [hfind] at hentry
      exact absurd rfl (hentry _)

/-- **The parts of a template type are matched in one and the same order**, whatever the candidate,
    if the match gets beyond the type itself. -/
theorem map_template?_ofParts {template candidate : TypeExpr}
    (h : NoneFails (ofParts template candidate)) :
    (ofParts template candidate).map template? = template.subgoals.map some := by
  generalize e : ofParts template candidate = goals at h
  unfold ofParts at e
  split at e
  case h_1 package ident foundPackage found =>
    split at e
    · cases e
      rfl
    · cases e
      exact absurd (List.mem_cons_of_mem _ List.mem_cons_self) (h _)
  case h_2 elem found =>
    cases e
    rfl
  case h_3 length elem foundLength found =>
    split at e
    · cases e
      rfl
    · cases e
      exact absurd List.mem_cons_self (h _)
  case h_4 direction value foundDirection found =>
    split at e
    · cases e
      exact absurd List.mem_cons_self (h _)
    · cases e
      rfl
  case h_5 params results foundParams foundResults =>
    cases e
    rw [List.map_append, map_template?_ofEntries, map_template?_ofEntries, ← List.map_append]
    · rfl
    · exact fun cause hmem => h cause (List.mem_append_right _ hmem)
    · exact fun cause hmem => h cause (List.mem_append_left _ hmem)
  case h_6 =>
    cases e
    exact absurd List.mem_cons_self (h _)
  case h_7 key value foundKey found =>
    cases e
    rfl
  case h_8 fields found =>
    cases e
    exact map_template?_ofFields h
  case h_9 =>
    cases e
    exact absurd List.mem_cons_self (h _)

end Goal

/-! ## 2. What a match reads -/

namespace Substitution

variable {subst other grown : Substitution} {keys : Binding → Prop} {key : Binding}
  {type : TypeExpr}

/-- Whether two substitutions bind some keys alike. -/
def AgreesOn (keys : Binding → Prop) (subst other : Substitution) : Prop :=
  ∀ key, keys key → subst.get? key = other.get? key

theorem AgreesOn.symm (h : AgreesOn keys subst other) : AgreesOn keys other subst :=
  fun key hkey => (h key hkey).symm

theorem AgreesOn.mono {fewer : Binding → Prop} (h : AgreesOn keys subst other)
    (hsub : ∀ key, fewer key → keys key) : AgreesOn fewer subst other :=
  fun key hkey => h key (hsub key hkey)

theorem AgreesOn.bindsName_eq {ident : String} (h : AgreesOn keys subst other)
    (hkey : keys (.name ident)) : subst.bindsName ident = other.bindsName ident := by
  rw [bindsName, bindsName, getName?, getName?, h _ hkey]

/-- A bind of a key that both bind alike succeeds in both, and they still do. -/
theorem AgreesOn.exists_bind (h : AgreesOn keys subst other) (hkey : keys key)
    (hbind : subst.bind key type = .ok grown) :
    ∃ last, other.bind key type = .ok last ∧ AgreesOn keys grown last := by
  rcases bind_eq_ok_iff.mp hbind with ⟨hnone, -⟩ | ⟨bound, hget, heq, rfl⟩
  · have hfresh : other.get? key = none := by rw [← h key hkey, hnone]
    have hlast : other.bind key type = .ok (other.extend key type hfresh) :=
      bind_of_get?_eq_none hfresh
    refine ⟨_, hlast, fun asked hasked => ?_⟩
    by_cases e : asked = key
    · rw [e, get?_of_bind_fresh hnone hbind, get?_of_bind_fresh hfresh hlast]
    · rw [get?_of_bind_ne e hbind, get?_of_bind_ne e hlast, h asked hasked]
  · have hother : other.get? key = some bound := by rw [← h key hkey, hget]
    exact ⟨other, Matcher.bind_of_equivalent hother heq, h⟩

end Substitution

namespace Matcher

variable {matcher : Matcher} {subst mid last other mid' last' : Substitution}
  {keys : Binding → Prop}

/-- What the goals of a step reach the type reached before. -/
theorem Becomes.reaches {template candidate : TypeExpr} {goals : List Goal}
    (hstep : matcher.Becomes template candidate subst goals mid) {goal : Goal} (hmem : goal ∈ goals)
    {key : Binding} (h : goal.Reaches matcher.template key) :
    matcher.template.Reaches template key := by
  cases hstep with
  | bound | undeclared | placeholder | universal => cases hmem
  | declared _ hdecl hdef =>
    cases List.mem_singleton.mp hmem
    exact .definition hdecl hdef h
  | paren | «variadic» =>
    cases List.mem_singleton.mp hmem
    exact .subgoal List.mem_cons_self h
  | parts =>
    cases goal with
    | fail => exact h.elim
    | pair => exact .subgoal (Goal.mem_subgoals_of_mem_ofParts hmem) h

/-- **A step reads no key but those within reach.** -/
theorem Becomes.exists_of_agreesOn {template candidate : TypeExpr} {goals : List Goal}
    (hstep : matcher.Becomes template candidate subst goals mid)
    (hkeys : ∀ key, matcher.template.Reaches template key → keys key)
    (h : Substitution.AgreesOn keys subst other) :
    ∃ last, matcher.Becomes template candidate other goals last ∧
      Substitution.AgreesOn keys mid last := by
  cases hstep with
  | bound hget heq =>
    have hother := (h _ (hkeys _ (.name _))).symm.trans hget
    exact ⟨other, .bound hother heq, h⟩
  | undeclared hfree hdecl =>
    have hother := (h.bindsName_eq (hkeys _ (.name _))).symm.trans hfree
    exact ⟨other, .undeclared hother hdecl, h⟩
  | placeholder hfree hdecl hvar hbind =>
    have hkey := hkeys _ (.name _)
    have hother := (h.bindsName_eq hkey).symm.trans hfree
    obtain ⟨last, hlast, hagrees⟩ := h.exists_bind hkey hbind
    exact ⟨last, .placeholder hother hdecl hvar hlast, hagrees⟩
  | declared hfree hdecl hdef hbind =>
    have hkey := hkeys _ (.name _)
    have hother := (h.bindsName_eq hkey).symm.trans hfree
    obtain ⟨last, hlast, hagrees⟩ := h.exists_bind hkey hbind
    exact ⟨last, .declared hother hdecl hdef hlast, hagrees⟩
  | paren => exact ⟨other, .paren .., h⟩
  | «variadic» => exact ⟨other, .variadic .., h⟩
  | universal hbind =>
    obtain ⟨last, hlast, hagrees⟩ := h.exists_bind (hkeys _ .universal) hbind
    exact ⟨last, .universal hlast, hagrees⟩
  | parts hs => exact ⟨other, .parts hs .., h⟩

/-- A run reads no key but those within reach of its goals. -/
theorem Runs.exists_of_agreesOn {goals : List Goal} (run : matcher.Runs goals subst (.ok last))
    (hkeys : ∀ goal ∈ goals, ∀ key, goal.Reaches matcher.template key → keys key)
    (h : Substitution.AgreesOn keys subst other) :
    ∃ final, matcher.Runs goals other (.ok final) ∧ Substitution.AgreesOn keys last final := by
  induction run using Runs.okInduction generalizing other with
  | done => exact ⟨other, .done other, h⟩
  | step hstep _ _ ih =>
    have hfirst := hkeys _ List.mem_cons_self
    obtain ⟨next, hnext, hagrees⟩ := hstep.exists_of_agreesOn hfirst h
    obtain ⟨final, hrun, hlast⟩ := ih (fun goal hmem key hreach => by
      rcases List.mem_append.mp hmem with hmem | hmem
      · exact hfirst key (hstep.reaches hmem hreach)
      · exact hkeys goal (List.mem_cons_of_mem _ hmem) key hreach) hagrees
    exact ⟨final, .step hnext.step_eq hrun, hlast⟩

/-- **Substitutions that agree on the keys within reach match alike.** -/
theorem exists_unify_of_agreesOn {template candidate : TypeExpr}
    (h : matcher.unify template candidate subst = .ok last)
    (hkeys : ∀ key, matcher.template.Reaches template key → keys key)
    (hagrees : Substitution.AgreesOn keys subst other) :
    ∃ final, matcher.unify template candidate other = .ok final ∧
      Substitution.AgreesOn keys last final := by
  obtain ⟨final, hrun, hlast⟩ := (run_of_unify h).exists_of_agreesOn (fun goal hmem => by
    cases List.mem_singleton.mp hmem
    exact hkeys) hagrees
  exact ⟨final, (matcher.runs_unify template candidate other).eq hrun, hlast⟩

/-! ## 3. Which keys a match binds -/

/-- The key that one step on a type binds, unless it is bound already. -/
def bindsNext (matcher : Matcher) : TypeExpr → Binding → Bool
  | .name ident, .name other => ident == other && (matcher.template.lookup ident).isSome
  | .interface .nil, .universal => true
  | _, _ => false

/-- The template types that one step on a type leaves to be matched. -/
def matchesNext (matcher : Matcher) (subst : Substitution) : TypeExpr → List TypeExpr
  | .name ident =>
    if subst.bindsName ident then []
    else
      match matcher.template.lookup ident with
      | some decl => if decl.isPlaceholder then [] else [decl.type]
      | none => []
  | type => type.subgoals

theorem bindsNext_name {ident : String} {decl : TypeDecl}
    (hdecl : matcher.template.lookup ident = some decl) (key : Binding) :
    matcher.bindsNext (.name ident) key = (Binding.name ident == key) := by
  cases key with
  | universal => rfl
  | name other =>
    rw [bindsNext, hdecl, Option.isSome_some, Bool.and_true, Bool.eq_iff_iff, beq_iff_eq,
      beq_iff_eq, Binding.name.injEq]

theorem isSome_get?_of_bind {key asked : Binding} {type : TypeExpr}
    (h : subst.bind key type = .ok mid) :
    (mid.get? asked).isSome = ((subst.get? asked).isSome || key == asked) := by
  by_cases e : asked = key
  · obtain ⟨bound, hget, -⟩ := Substitution.exists_get?_of_bind h
    simp [e, hget]
  · have hne : (key == asked) = false := by simpa using fun e' => e e'.symm
    rw [Substitution.get?_of_bind_ne e h, hne, Bool.or_false]

/-- The keys that a step binds are those of its template type. -/
theorem Becomes.isSome_get? {template candidate : TypeExpr} {goals : List Goal}
    (hstep : matcher.Becomes template candidate subst goals mid) (key : Binding) :
    (mid.get? key).isSome = ((subst.get? key).isSome || matcher.bindsNext template key) := by
  cases hstep with
  | @bound ident _ _ _ hget =>
    cases key with
    | universal => simp [bindsNext]
    | name other =>
      by_cases e : ident = other
      · have hother : subst.get? (.name other) = some _ := e ▸ hget
        rw [hother]
        rfl
      · simp [bindsNext, e]
  | undeclared _ hdecl => cases key <;> simp [bindsNext, hdecl]
  | placeholder _ hdecl _ hbind | declared _ hdecl _ hbind =>
    rw [isSome_get?_of_bind hbind, bindsNext_name hdecl]
  | paren | «variadic» => cases key <;> simp [bindsNext]
  | universal hbind =>
    rw [isSome_get?_of_bind hbind]
    cases key <;> rfl
  | parts hs =>
    unfold bindsNext
    split
    · cases hs
    · cases hs
    · rw [Bool.or_false]

/-- The goals that a step leaves are for the template types that come next. -/
theorem Becomes.map_template? {template candidate : TypeExpr} {goals : List Goal}
    (hstep : matcher.Becomes template candidate subst goals mid) (hnone : Goal.NoneFails goals) :
    goals.map Goal.template? = (matcher.matchesNext subst template).map some := by
  cases hstep with
  | bound hget =>
    have hbound : subst.bindsName _ = true := Option.isSome_of_eq_some hget
    rw [matchesNext, if_pos hbound]
    rfl
  | undeclared hfree hdecl => simp [matchesNext, hfree, hdecl]
  | placeholder hfree hdecl hvar => simp [matchesNext, hfree, hdecl, hvar]
  | declared hfree hdecl hdef =>
    simp [matchesNext, hfree, hdecl, hdef, Goal.template?]
  | paren | «variadic» => rfl
  | universal => rfl
  | parts hs =>
    rw [Goal.map_template?_ofParts hnone]
    unfold matchesNext
    split
    · cases hs
    · rfl

/-- A run that succeeds has no goals that fail. -/
theorem Runs.noneFails {goals : List Goal} (run : matcher.Runs goals subst (.ok last)) :
    Goal.NoneFails goals := by
  intro cause hmem
  have := run.settled (.refl matcher last) _ hmem
  cases this

end Matcher

/-- Whether two substitutions bind the same keys, perhaps to different types. -/
def Substitution.BindsSame (subst other : Substitution) : Prop :=
  ∀ key, (subst.get? key).isSome = (other.get? key).isSome

theorem Substitution.BindsSame.bindsName_eq {subst other : Substitution}
    (h : subst.BindsSame other) (ident : String) : subst.bindsName ident = other.bindsName ident :=
  h (.name ident)

theorem Substitution.BindsSame.get?_eq_none {subst other : Substitution} {key : Binding}
    (h : subst.BindsSame other) (hnone : subst.get? key = none) : other.get? key = none := by
  have hkey := h key
  rw [hnone] at hkey
  exact Option.isNone_iff_eq_none.mp (Option.isSome_eq_false_iff.mp hkey.symm)

namespace Matcher

variable {matcher : Matcher} {subst mid last other mid' last' : Substitution}

theorem matchesNext_congr (h : subst.BindsSame other) (template : TypeExpr) :
    matcher.matchesNext subst template = matcher.matchesNext other template := by
  unfold matchesNext
  split
  · rw [h.bindsName_eq]
  · rfl

/-- **Which keys a run binds does not depend on the candidates of its goals.** -/
theorem Runs.bindsSame {goals others : List Goal} (run : matcher.Runs goals subst (.ok last))
    (run' : matcher.Runs others other (.ok last'))
    (htemplates : goals.map Goal.template? = others.map Goal.template?)
    (h : subst.BindsSame other) : last.BindsSame last' := by
  induction run using Runs.okInduction generalizing others other with
  | done =>
    cases List.map_eq_nil_iff.mp htemplates.symm
    cases run'
    exact h
  | @step template candidate rest goals subst mid hstep next _ ih =>
    cases others with
    | nil => cases htemplates
    | cons goal others =>
      rw [List.map_cons, List.map_cons] at htemplates
      obtain ⟨hfirst, hrest⟩ := List.cons_eq_cons.mp htemplates
      cases run' with
      | @step template' candidate' _ goals' _ mid' _ hstep' next' =>
        cases hfirst
        have hbecomes := becomes_of_step hstep'
        refine ih next' ?_ fun key => ?_
        · have hleft := hstep.map_template? fun cause hmem =>
            next.noneFails cause (List.mem_append_left _ hmem)
          have hright := hbecomes.map_template? fun cause hmem =>
            next'.noneFails cause (List.mem_append_left _ hmem)
          rw [List.map_append, List.map_append, hleft, hright, hrest, matchesNext_congr h]
        · rw [hstep.isSome_get?, hbecomes.isSome_get?, h key]

/-- **Which keys a match binds does not depend on the candidate.** -/
theorem bindsSame_of_unify {template candidate candidate' : TypeExpr}
    (h : matcher.unify template candidate subst = .ok last)
    (h' : matcher.unify template candidate' other = .ok last') (hsame : subst.BindsSame other) :
    last.BindsSame last' :=
  (run_of_unify h).bindsSame (run_of_unify h') rfl hsame

/-- A goal that is settled binds what it reaches, if the definitions of all bound names are
    settled. -/
theorem Settled.binds_of_reaches
    (hdefs : ∀ ident decl, last.bindsName ident = true →
      matcher.template.lookup ident = some decl → decl.isPlaceholder = false →
        ∃ candidate, matcher.Settled last (.pair decl.type candidate))
    {template : TypeExpr} {key : Binding} (hreach : matcher.template.Reaches template key)
    (hkey : matcher.CanBind key) :
    ∀ {candidate}, matcher.Settled last (.pair template candidate) →
      (last.get? key).isSome = true := by
  have declared : ∀ {ident candidate}, matcher.Settled last (.pair (.name ident) candidate) →
      (matcher.template.lookup ident).isSome = true → last.bindsName ident = true := by
    intro ident candidate h hdecl
    obtain ⟨hstep, -⟩ := h
    have hget := hstep.isSome_get? (.name ident)
    rw [bindsNext, hdecl, Bool.and_true, BEq.rfl, Bool.or_true] at hget
    exact hget
  induction hreach with
  | name ident =>
    intro candidate h
    exact declared h hkey
  | universal =>
    intro candidate h
    obtain ⟨hstep, -⟩ := h
    have hget := hstep.isSome_get? .universal
    rwa [TypeExpr.emptyInterface, bindsNext, Bool.or_true] at hget
  | @subgoal type part key hpart _ ih =>
    intro candidate h
    obtain ⟨hstep, hgoals⟩ := h
    have hnone : Goal.NoneFails _ := fun cause hmem => by cases hgoals _ hmem
    have htemplates := hstep.map_template? hnone
    have hnext : matcher.matchesNext last type = type.subgoals := by
      unfold matchesNext
      split
      · cases hpart
      · rfl
    have hmem : some part ∈ (matcher.matchesNext last type).map some :=
      List.mem_map_of_mem (hnext ▸ hpart)
    rw [← htemplates] at hmem
    obtain ⟨goal, hgoal, e⟩ := List.mem_map.mp hmem
    cases goal with
    | fail => cases e
    | pair left right =>
      cases e
      exact ih hkey (hgoals _ hgoal)
  | definition hdecl hdef _ ih =>
    intro candidate h
    have hbound := declared h (Option.isSome_of_eq_some hdecl)
    obtain ⟨found, hfound⟩ := hdefs _ _ hbound hdecl hdef
    exact ih hkey hfound

/-! ## 4. What a match reads of its scopes -/

section Scopes

variable {wider : Matcher} {P : TypeExpr → Prop} (hP : Hereditary P)
  (hprovider : matcher.ProviderHas P)
  (htemplate : ∀ ident, wider.template.lookup ident = matcher.template.lookup ident)
  (hresolve : ∀ type, P type → wider.resolve type = matcher.resolve type)

include htemplate hresolve in
theorem step_eq_of_resolve_eq {template candidate : TypeExpr} (h : P candidate)
    (subst : Substitution) :
    wider.step template candidate subst = matcher.step template candidate subst := by
  unfold step
  split
  · rw [htemplate]
  · rfl
  · rfl
  · rfl
  · rw [hresolve candidate h]

include hP hprovider htemplate hresolve

/-- A run that looks names up and through candidates alike is the same run. -/
theorem Runs.of_resolve_eq {goals : List Goal} {result : Matched}
    (run : matcher.Runs goals subst result) (hgoals : ∀ goal ∈ goals, goal.CandidateHas P) :
    wider.Runs goals subst result := by
  induction run with
  | done subst => exact .done subst
  | fail cause rest subst => exact .fail cause rest subst
  | refuse hstep =>
    have hcandidate := hgoals _ List.mem_cons_self
    exact .refuse ((step_eq_of_resolve_eq htemplate hresolve hcandidate _).trans hstep)
  | step hstep _ ih =>
    have hcandidate := hgoals _ List.mem_cons_self
    have hnew := ((becomes_of_step hstep).hereditary hP hprovider hcandidate).1
    refine .step ((step_eq_of_resolve_eq htemplate hresolve hcandidate _).trans hstep) (ih ?_)
    intro goal hmem
    rcases List.mem_append.mp hmem with hmem | hmem
    · exact hnew goal hmem
    · exact hgoals goal (List.mem_cons_of_mem _ hmem)

/-- **A match depends on the template only by its lookups**, and on the provider only by what
    candidates are looked through to. -/
theorem unify_eq_of_resolve_eq {candidate : TypeExpr} (h : P candidate) (template : TypeExpr)
    (subst : Substitution) :
    wider.unify template candidate subst = matcher.unify template candidate subst := by
  have hgoals : ∀ goal ∈ [Goal.pair template candidate], goal.CandidateHas P := by
    intro goal hmem
    cases List.mem_singleton.mp hmem
    exact h
  exact (wider.runs_unify template candidate subst).eq
    ((matcher.runs_unify template candidate subst).of_resolve_eq hP hprovider htemplate hresolve
      hgoals)

theorem unifyDecl_eq_of_resolve_eq (target : TypeDecl) {candidate : TypeDecl}
    (h : P candidate.type) (subst : Substitution) :
    wider.unifyDecl target candidate subst = matcher.unifyDecl target candidate subst := by
  unfold unifyDecl
  refine congrArg _ (funext fun mid => ?_)
  split
  · rfl
  · exact unify_eq_of_resolve_eq hP hprovider htemplate hresolve h target.type mid

end Scopes

end Matcher

end GoStencil
