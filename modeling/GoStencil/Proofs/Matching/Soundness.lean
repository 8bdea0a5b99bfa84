import GoStencil.Proofs.Matching.Machine

/-!
# What a match establishes

Names are bound before the definitions behind them are matched, so a match is judged by the
substitution at its very end.

* `Implements`: what it means that a candidate implements a template type, with no account of how
  that is found out.
* `Matcher.Runs.implements`: a run that succeeds has found implementations only.
* `Matcher.Runs.justified`: what a run binds a declared name to implements its definition.
-/

namespace GoStencil

/-! ## 1. Implementations -/

/-- Whether a template type is implemented by a candidate under a substitution, where `resolve` is
    how candidates are looked through. A bound name goes by its binding alone, which is why this
    recursion ends although template types may be recursive. -/
inductive Implements (subst : Substitution) (resolve : TypeExpr → TypeExpr) :
    TypeExpr → TypeExpr → Prop where
  | bound {ident : String} {type candidate : TypeExpr} (hget : subst.getName? ident = some type)
      (heq : type.equivalent candidate = true) : Implements subst resolve (.name ident) candidate
  | undeclared {ident : String} (hfree : subst.getName? ident = none) :
      Implements subst resolve (.name ident) (.name ident)
  | paren {inner candidate : TypeExpr} (h : Implements subst resolve inner candidate) :
      Implements subst resolve (.paren inner) candidate
  | universal {type candidate : TypeExpr} (hget : subst.universal? = some type)
      (heq : type.equivalent candidate = true) : Implements subst resolve .emptyInterface candidate
  | variadic {elem candidate : TypeExpr} (h : Implements subst resolve elem candidate) :
      Implements subst resolve (.variadic elem) (.variadic candidate)
  /-- A parameter that takes any number of arguments takes one. -/
  | single {elem candidate : TypeExpr} (hne : ∀ inner, candidate ≠ .variadic inner)
      (h : Implements subst resolve elem candidate) :
      Implements subst resolve (.variadic elem) candidate
  | qualified {package ident foundPackage : String} {candidate : TypeExpr}
      (hcandidate : resolve candidate = .qualified foundPackage ident)
      (h : Implements subst resolve (.name package) (.name foundPackage)) :
      Implements subst resolve (.qualified package ident) candidate
  | pointer {elem found candidate : TypeExpr} (hcandidate : resolve candidate = .pointer found)
      (h : Implements subst resolve elem found) : Implements subst resolve (.pointer elem) candidate
  | array {length : Option String} {elem found candidate : TypeExpr}
      (hcandidate : resolve candidate = .array length found)
      (h : Implements subst resolve elem found) :
      Implements subst resolve (.array length elem) candidate
  /-- A channel that is used in one direction takes a channel of that direction or of both. -/
  | channel {direction foundDirection : Direction} {value found candidate : TypeExpr}
      (hcandidate : resolve candidate = .channel foundDirection found)
      (hdirection : direction = foundDirection ∨ direction = .both ∨ foundDirection = .both)
      (h : Implements subst resolve value found) :
      Implements subst resolve (.channel direction value) candidate
  | map {key value foundKey found candidate : TypeExpr}
      (hcandidate : resolve candidate = .map foundKey found)
      (hkey : Implements subst resolve key foundKey)
      (hvalue : Implements subst resolve value found) :
      Implements subst resolve (.map key value) candidate
  /-- A function takes a function with as many parameters and results, each of which takes the
      one in its place. -/
  | function {params results foundParams foundResults : FieldList} {candidate : TypeExpr}
      (hcandidate : resolve candidate = .function foundParams foundResults)
      (hnumParams : params.numFields = foundParams.numFields)
      (hnumResults : results.numFields = foundResults.numFields)
      (hparams : ∀ types ∈ params.entryTypes.zip foundParams.entryTypes,
        Implements subst resolve types.1 types.2)
      (hresults : ∀ types ∈ results.entryTypes.zip foundResults.entryTypes,
        Implements subst resolve types.1 types.2) :
      Implements subst resolve (.function params results) candidate
  /-- A struct takes a struct that has all of its fields, whatever their order. -/
  | struct {fields found : FieldList} {candidate : TypeExpr}
      (hcandidate : resolve candidate = .struct found)
      (hfound : ∀ entry ∈ fields.effectiveEntries, (found.find? entry.1).isSome = true)
      (hfields : ∀ entry ∈ fields.effectiveEntries, ∀ field, found.find? entry.1 = some field →
        Implements subst resolve entry.2 field.type) :
      Implements subst resolve (.struct fields) candidate

/-! ## 2. A type is implemented when its goals are -/

section Goals

variable {subst : Substitution} {resolve : TypeExpr → TypeExpr}

/-- What it takes for some goals to be met. -/
def Goal.Met (subst : Substitution) (resolve : TypeExpr → TypeExpr) : Goal → Prop
  | .pair template candidate => Implements subst resolve template candidate
  | .fail _ => False

theorem Implements.of_variadicElem {elem candidate : TypeExpr}
    (h : Implements subst resolve elem candidate.variadicElem) :
    Implements subst resolve (.variadic elem) candidate := by
  cases candidate with
  | «variadic» found => exact .variadic h
  | _ => exact .single nofun h

theorem Goal.met_ofEntries {template candidate : FieldList}
    (h : ∀ goal ∈ ofEntries template candidate, goal.Met subst resolve) :
    template.numFields = candidate.numFields ∧
      ∀ types ∈ template.entryTypes.zip candidate.entryTypes,
        Implements subst resolve types.1 types.2 := by
  unfold ofEntries at h
  split at h
  · rename_i hlen
    exact ⟨hlen, fun types hmem => h _ (List.mem_map.mpr ⟨types, hmem, rfl⟩)⟩
  · exact (h _ List.mem_cons_self).elim

theorem Goal.met_ofField {candidate : FieldList} {entry : String × TypeExpr}
    (h : (ofField candidate entry).Met subst resolve) :
    (candidate.find? entry.1).isSome = true ∧
      ∀ field, candidate.find? entry.1 = some field →
        Implements subst resolve entry.2 field.type := by
  unfold ofField at h
  split at h
  · rename_i found hfound
    refine ⟨by rw [hfound]; rfl, fun field hfield => ?_⟩
    rw [hfound] at hfield
    cases hfield
    exact h
  · exact h.elim

theorem Goal.met_ofFields {template candidate : FieldList}
    (h : ∀ goal ∈ ofFields template candidate, goal.Met subst resolve) :
    ∀ entry ∈ template.effectiveEntries, (ofField candidate entry).Met subst resolve := by
  unfold ofFields at h
  split at h
  · exact (h _ List.mem_cons_self).elim
  · exact fun entry hmem => h _ (List.mem_map.mpr ⟨entry, hmem, rfl⟩)

/-- **A structural type is implemented when its goals are met.** -/
theorem Implements.of_goals {template candidate : TypeExpr} (hs : template.isStructural = true)
    (h : ∀ goal ∈ Goal.ofParts template (resolve candidate), goal.Met subst resolve) :
    Implements subst resolve template candidate := by
  generalize hcandidate : resolve candidate = seen at h
  unfold Goal.ofParts at h
  split at h
  case h_1 package ident foundPackage found =>
    split at h
    · rename_i hident
      subst hident
      exact .qualified hcandidate (h _ List.mem_cons_self)
    · exact (h _ (List.mem_cons_of_mem _ List.mem_cons_self)).elim
  case h_2 elem found => exact .pointer hcandidate (h _ List.mem_cons_self)
  case h_3 length elem foundLength found =>
    split at h
    · rename_i hlength
      subst hlength
      exact .array hcandidate (h _ List.mem_cons_self)
    · exact (h _ List.mem_cons_self).elim
  case h_4 direction value foundDirection found =>
    split at h
    · exact (h _ List.mem_cons_self).elim
    · rename_i hdirection
      refine .channel hcandidate ?_ (h _ List.mem_cons_self)
      by_cases hleft : direction = .both
      · exact .inr (.inl hleft)
      by_cases hright : foundDirection = .both
      · exact .inr (.inr hright)
      by_cases hsame : direction = foundDirection
      · exact .inl hsame
      exact (hdirection ⟨hleft, hright, hsame⟩).elim
  case h_5 params results foundParams foundResults =>
    obtain ⟨hnumParams, hparams⟩ :=
      Goal.met_ofEntries fun goal hmem => h goal (List.mem_append_left _ hmem)
    obtain ⟨hnumResults, hresults⟩ :=
      Goal.met_ofEntries fun goal hmem => h goal (List.mem_append_right _ hmem)
    exact .function hcandidate hnumParams hnumResults hparams hresults
  case h_6 => exact (h _ List.mem_cons_self).elim
  case h_7 key value foundKey found =>
    exact .map hcandidate (h _ List.mem_cons_self)
      (h _ (List.mem_cons_of_mem _ List.mem_cons_self))
  case h_8 fields found =>
    have hmet := Goal.met_ofFields h
    exact .struct hcandidate (fun entry hmem => (Goal.met_ofField (hmet entry hmem)).1)
      fun entry hmem => (Goal.met_ofField (hmet entry hmem)).2
  case h_9 => exact (h _ List.mem_cons_self).elim

end Goals

/-! ## 3. Runs -/

namespace Matcher

variable {matcher : Matcher} {subst mid last final : Substitution}

/-- Whether a substitution binds no names but those that the template declares. -/
def BindsDeclared (matcher : Matcher) (subst : Substitution) : Prop :=
  ∀ ident, subst.bindsName ident = true → (matcher.template.lookup ident).isSome = true

/-- Whether what the names are bound to that one substitution binds and an earlier one does not
    implements their declarations. -/
def Justified (matcher : Matcher) (final subst grown : Substitution) : Prop :=
  ∀ ident type decl, subst.bindsName ident = false → grown.getName? ident = some type →
    matcher.template.lookup ident = some decl → decl.isPlaceholder = false →
    Implements final matcher.resolve decl.type type

theorem bindsDeclared_empty (matcher : Matcher) : matcher.BindsDeclared .empty := by
  intro ident h
  cases h

theorem justified_refl (matcher : Matcher) (final subst : Substitution) :
    matcher.Justified final subst subst := by
  intro ident type decl hfree hget
  rw [Substitution.bindsName, hget] at hfree
  cases hfree

theorem Justified.trans (h : matcher.Justified final subst mid) (hle : mid ≤ last)
    (h' : matcher.Justified final mid last) : matcher.Justified final subst last := by
  intro ident type decl hfree hget
  cases hmid : mid.getName? ident with
  | none => exact h' ident type decl (by rw [Substitution.bindsName, hmid]; rfl) hget
  | some bound =>
    have hbound : last.getName? ident = some bound := Substitution.get?_of_le hle hmid
    rw [hget] at hbound
    cases hbound
    exact h ident type decl hfree hmid

theorem BindsDeclared.bind {ident : String} {type : TypeExpr} {grown : Substitution}
    (h : matcher.BindsDeclared subst) (hdecl : (matcher.template.lookup ident).isSome = true)
    (hbind : subst.bind (.name ident) type = .ok grown) : matcher.BindsDeclared grown := by
  intro other hother
  by_cases e : other = ident
  · rwa [e]
  · rw [Substitution.bindsName, Substitution.getName?_of_bind_ne e hbind] at hother
    exact h other hother

theorem BindsDeclared.bind_universal {type : TypeExpr} {grown : Substitution}
    (h : matcher.BindsDeclared subst) (hbind : subst.bind .universal type = .ok grown) :
    matcher.BindsDeclared grown := by
  intro other hother
  rw [Substitution.bindsName, Substitution.getName?_of_bind_universal hbind] at hother
  exact h other hother

theorem Becomes.bindsDeclared {template candidate : TypeExpr} {goals : List Goal}
    (hstep : matcher.Becomes template candidate subst goals mid)
    (h : matcher.BindsDeclared subst) : matcher.BindsDeclared mid := by
  cases hstep with
  | bound | undeclared | paren | «variadic» | parts => exact h
  | placeholder _ hdecl _ hbind | declared _ hdecl _ hbind =>
    exact h.bind (by rw [hdecl]; rfl) hbind
  | universal hbind => exact h.bind_universal hbind

theorem Runs.bindsDeclared {goals : List Goal} (run : matcher.Runs goals subst (.ok last))
    (h : matcher.BindsDeclared subst) : matcher.BindsDeclared last := by
  induction run using Runs.okInduction with
  | done => exact h
  | step hstep _ _ ih => exact ih (hstep.bindsDeclared h)

/-- A step is right when the goals it leaves are met in the end. -/
theorem Becomes.implements {template candidate : TypeExpr} {goals : List Goal}
    (hstep : matcher.Becomes template candidate subst goals mid) (hle : mid ≤ final)
    (hfinal : matcher.BindsDeclared final)
    (h : ∀ goal ∈ goals, goal.Met final matcher.resolve) :
    Implements final matcher.resolve template candidate := by
  cases hstep with
  | bound hget heq => exact .bound (Substitution.get?_of_le hle hget) heq
  | undeclared _ hdecl =>
    refine .undeclared (Option.not_isSome_iff_eq_none.mp fun hbound => ?_)
    have := hfinal _ hbound
    rw [hdecl] at this
    cases this
  | placeholder _ _ _ hbind | declared _ _ _ hbind =>
    obtain ⟨type, hget, heq⟩ := Substitution.exists_get?_of_bind hbind
    exact .bound (Substitution.get?_of_le hle hget) heq
  | paren => exact .paren (h _ List.mem_cons_self)
  | «variadic» => exact .of_variadicElem (h _ List.mem_cons_self)
  | universal hbind =>
    obtain ⟨type, hget, heq⟩ := Substitution.exists_get?_of_bind hbind
    exact .universal (Substitution.get?_of_le hle hget) heq
  | parts hs => exact .of_goals hs h

/-- **A run that succeeds meets its goals**, as far as any later substitution is concerned. -/
theorem Runs.met {goals : List Goal} (run : matcher.Runs goals subst (.ok last))
    (hle : last ≤ final) (hfinal : matcher.BindsDeclared final) :
    ∀ goal ∈ goals, goal.Met final matcher.resolve := by
  induction run using Runs.okInduction with
  | done => nofun
  | @step template candidate rest goals subst mid hstep next _ ih =>
    intro goal hmem
    rcases List.mem_cons.mp hmem with rfl | hmem
    · exact hstep.implements (le_trans next.le hle) hfinal
        fun goal hgoal => ih goal (List.mem_append_left _ hgoal)
    · exact ih goal (List.mem_append_right _ hmem)

/-- **What a step binds a declared name to implements its definition.** The definition is matched
    after the name is bound, so the goals that are left have to be met in the end. -/
theorem Becomes.justified {template candidate : TypeExpr} {goals : List Goal}
    (hstep : matcher.Becomes template candidate subst goals mid)
    (hgoals : ∀ goal ∈ goals, goal.Met final matcher.resolve) :
    matcher.Justified final subst mid := by
  intro ident type decl hfree hget hdecl hdef
  exact hgoals _ (hstep.mem_goals_of_binds hfree hget hdecl hdef)

theorem Runs.justified {goals : List Goal} (run : matcher.Runs goals subst (.ok last))
    (hle : last ≤ final) (hfinal : matcher.BindsDeclared final) :
    matcher.Justified final subst last := by
  induction run using Runs.okInduction with
  | done => exact justified_refl matcher final _
  | step hstep next _ ih =>
    have hmet := next.met hle hfinal
    have hfirst := hstep.justified fun goal hgoal => hmet goal (List.mem_append_left _ hgoal)
    exact hfirst.trans next.le ih

/-! ## 4. Matches -/

section Unify

variable {template candidate : TypeExpr} (h : matcher.unify template candidate subst = .ok last)

include h

theorem bindsDeclared_of_unify (hsubst : matcher.BindsDeclared subst) :
    matcher.BindsDeclared last :=
  (run_of_unify h).bindsDeclared hsubst

/-- **A match that succeeds finds an implementation**, also for every later substitution. -/
theorem implements_of_unify (hle : last ≤ final) (hfinal : matcher.BindsDeclared final) :
    Implements final matcher.resolve template candidate :=
  (run_of_unify h).met hle hfinal _ List.mem_cons_self

theorem justified_of_unify (hle : last ≤ final) (hfinal : matcher.BindsDeclared final) :
    matcher.Justified final subst last :=
  (run_of_unify h).justified hle hfinal

end Unify

end Matcher

end GoStencil
