import GoStencil.Proofs.Specialization.TypeNames
import GoStencil.Proofs.Specialization.Unrelated
import Mathlib.Data.List.Induction

/-!
# What related types are named after

A trial names the related types one after the other, and a name that it has given counts as bound
from then on. So a related type is named after another one that its definition mentions only if that
one comes first, and the order of the related types matters where these mention each other, but
nowhere else.

* `Trial.namesakes`: the names in the definition of a related type that it is named after.
* `Trial.bound_of_bindRelated`: what the related types are bound to, in terms of their namesakes.
* `Trial.NamedAlike`: whether a related type has the same namesakes in another order, and these have
  the same names.
* `Trial.exists_bindRelated_of_namedAlike`: then it gets the same name.
* `Trial.namedAlike_of_bindsName`: a type that is bound by a match has no namesakes but those that
  are bound by it as well, so the order does not matter for it.
-/

namespace GoStencil

/-! ## 1. References -/

mutual

/-- The references of a type are what its bound names stand for. -/
theorem TypeExpr.references_eq (subst : Substitution) : ∀ type : TypeExpr,
    type.references subst = (type.names.filter subst.bindsName).map
      fun ident => (TypeExpr.name ident).instantiate subst
  | .name ident => by
    cases hget : subst.getName? ident <;>
      simp [TypeExpr.references, TypeExpr.names, TypeExpr.instantiate, Substitution.bindsName, hget]
  | .qualified .. => rfl
  | .pointer elem | .paren elem | .variadic elem | .array _ elem | .channel _ elem =>
    TypeExpr.references_eq subst elem
  | .map key value => by
    rw [TypeExpr.references, TypeExpr.names, TypeExpr.references_eq subst key,
      TypeExpr.references_eq subst value, List.filter_append, List.map_append]
  | .function params results => by
    rw [TypeExpr.references, TypeExpr.names, FieldList.references_eq subst params,
      FieldList.references_eq subst results, List.filter_append, List.map_append]
  | .struct fields | .interface fields => FieldList.references_eq subst fields

theorem FieldList.references_eq (subst : Substitution) : ∀ fields : FieldList,
    fields.references subst = (fields.typeNames.filter subst.bindsName).map
      fun ident => (TypeExpr.name ident).instantiate subst
  | .nil => rfl
  | .cons _ type _ rest => by
    rw [FieldList.references, FieldList.typeNames, TypeExpr.references_eq subst type,
      FieldList.references_eq subst rest, List.filter_append, List.map_append]

end

namespace Trial

/-! ## 2. Namesakes -/

/-- Whether a name is that of a related type which is named before the given one. -/
def namesBefore (trial : Trial) (related : TypeDecl) (ident : String) : Bool :=
  (trial.related.takeWhile fun decl => decl.name ≠ related.name).any (·.name == ident)

/-- What a related type is named after, one name for each marker as far as they go: the first names
    in its definition that are bound once the targets are implemented, or that are those of related
    types before it. -/
def namesakes (trial : Trial) (subst : Substitution) (related : TypeDecl) : List String :=
  (related.type.names.filter fun ident =>
    subst.bindsName ident || trial.namesBefore related ident).take
      (markerCount trial.options.marker related.name)

/-- The name of a related type for what it is named after. -/
def nameAfter (trial : Trial) (candidate related : TypeDecl) (namesakes : List String)
    (subst : Substitution) : String :=
  relatedName trial.options.nameOf related.name trial.options.marker
    (namesakes.map fun ident => (TypeExpr.name ident).instantiate subst)
    (Text.capitalize candidate.name)

variable {trial other : Trial} {candidate related : TypeDecl} {subst mid last : Substitution}

theorem exists_of_namesBefore {ident : String} (h : trial.namesBefore related ident = true) :
    ∃ decl ∈ trial.related, decl.name = ident := by
  obtain ⟨decl, hmem, e⟩ := List.any_eq_true.mp h
  exact ⟨decl, (List.takeWhile_sublist _).subset hmem, eq_of_beq e⟩

/-- No related type is named before itself. -/
theorem namesBefore_self (trial : Trial) (related : TypeDecl) :
    trial.namesBefore related related.name = false := by
  rw [namesBefore, List.any_eq_false]
  intro decl hdecl
  simpa using List.mem_takeWhile_imp hdecl

/-- The types that are named before one are those to its left. -/
theorem namesBefore_eq_any {before after : List TypeDecl}
    (hnodup : (trial.related.map (·.name)).Nodup)
    (hsplit : trial.related = before ++ related :: after) (ident : String) :
    trial.namesBefore related ident = before.any (·.name == ident) := by
  rw [hsplit, List.map_append, List.map_cons, List.nodup_append] at hnodup
  rw [namesBefore, hsplit, List.takeWhile_append_of_pos, List.takeWhile_cons_of_neg (by simp),
    List.append_nil]
  intro decl hmem
  exact decide_eq_true (hnodup.2.2 _ (List.mem_map_of_mem hmem) _ List.mem_cons_self)

theorem mem_namesakes {ident : String} (h : ident ∈ trial.namesakes subst related) :
    ident ∈ related.type.names ∧
      (subst.bindsName ident = true ∨ trial.namesBefore related ident = true) := by
  obtain ⟨hmem, hbefore⟩ := List.mem_filter.mp (List.mem_of_mem_take h)
  exact ⟨hmem, Bool.or_eq_true_iff.mp hbefore⟩

theorem namesakes_congr (hoptions : other.options = trial.options)
    (h : ∀ ident ∈ related.type.names, (subst.bindsName ident || other.namesBefore related ident) =
      (subst.bindsName ident || trial.namesBefore related ident)) :
    other.namesakes subst related = trial.namesakes subst related := by
  rw [namesakes, namesakes, hoptions, List.filter_congr h]

/-- A name depends on nothing but what the namesakes stand for. -/
theorem nameAfter_congr {namesakes : List String}
    (h : ∀ ident ∈ namesakes, mid.getName? ident = last.getName? ident) :
    trial.nameAfter candidate related namesakes mid =
      trial.nameAfter candidate related namesakes last := by
  have hpieces : (namesakes.map fun ident => (TypeExpr.name ident).instantiate mid) =
      namesakes.map fun ident => (TypeExpr.name ident).instantiate last :=
    List.map_congr_left fun ident hmem => by
      rw [TypeExpr.instantiate, TypeExpr.instantiate, h ident hmem]
  rw [nameAfter, nameAfter, hpieces]

/-- **A related type is named after its namesakes** when it is its turn. -/
theorem relatedName_eq_nameAfter
    (hbinds : ∀ ident, mid.bindsName ident =
      (subst.bindsName ident || trial.namesBefore related ident)) :
    relatedName trial.options.nameOf related.name trial.options.marker
        (related.type.references mid) (Text.capitalize candidate.name) =
      trial.nameAfter candidate related (trial.namesakes subst related) mid := by
  rw [TypeExpr.references_eq, nameAfter, namesakes, List.map_take, relatedName_take,
    ← funext hbinds]

/-! ## 3. What naming binds -/

/-- Naming related types binds nothing else. -/
theorem get?_of_bindRelated {decls : List TypeDecl} {key : Binding}
    (h : trial.bindRelated candidate decls subst = .ok last) :
    (∀ decl ∈ decls, key ≠ .name decl.name) → last.get? key = subst.get? key := by
  refine bindRelated_induction trial candidate
    (motive := fun decls subst => (∀ decl ∈ decls, key ≠ .name decl.name) →
      last.get? key = subst.get? key) (fun _ => rfl) ?_ h
  intro decl rest subst grown name _ hbind _ ih hkey
  rw [ih fun other hmem => hkey other (List.mem_cons_of_mem _ hmem)]
  exact Substitution.get?_of_bind_ne (hkey decl List.mem_cons_self) hbind

theorem bindsName_of_bindRelated_eq {decls : List TypeDecl}
    (h : trial.bindRelated candidate decls subst = .ok last) (ident : String) :
    last.bindsName ident = (subst.bindsName ident || decls.any (·.name == ident)) := by
  by_cases hdecls : ∃ decl ∈ decls, decl.name = ident
  · obtain ⟨decl, hmem, rfl⟩ := hdecls
    have hany : decls.any (·.name == decl.name) = true :=
      List.any_eq_true.mpr ⟨decl, hmem, beq_self_eq_true _⟩
    rw [bindsName_of_bindRelated h decl hmem, hany, Bool.or_true]
  · have hkey : ∀ decl ∈ decls, Binding.name ident ≠ .name decl.name :=
      fun decl hmem e => hdecls ⟨decl, hmem, (Binding.name.inj e).symm⟩
    have hnone : decls.any (·.name == ident) = false := by
      rw [List.any_eq_false]
      exact fun decl hmem e => hdecls ⟨decl, hmem, eq_of_beq e⟩
    rw [hnone, Bool.or_false, Substitution.bindsName, Substitution.getName?,
      get?_of_bindRelated h hkey]
    rfl

/-- **What naming the related types binds them to**: a type that is bound already keeps what it is
    bound to, which has to be the name that it would get. -/
theorem bound_of_bindRelated (hnodup : (trial.related.map (·.name)).Nodup)
    (h : trial.bindRelated candidate trial.related subst = .ok last)
    (hmem : related ∈ trial.related) :
    ∃ bound, last.getName? related.name = some bound ∧
      bound.equivalent (.name (trial.nameAfter candidate related
        (trial.namesakes subst related) last)) = true ∧
      (subst.bindsName related.name = false → bound = .name (trial.nameAfter candidate related
        (trial.namesakes subst related) last)) := by
  obtain ⟨mid, grown, hmid, hbind, hle⟩ :=
    exists_turn_of_bindRelated hmem (fun _ hother => List.inj_on_of_nodup_map hnodup hother hmem) h
  have hbinds : ∀ ident, mid.bindsName ident =
      (subst.bindsName ident || trial.namesBefore related ident) :=
    bindsName_of_bindRelated_eq hmid
  have hname : trial.nameAfter candidate related (trial.namesakes subst related) mid =
      trial.nameAfter candidate related (trial.namesakes subst related) last := by
    refine nameAfter_congr fun ident hident => ?_
    have hbound : mid.bindsName ident = true :=
      (hbinds ident).trans (Bool.or_eq_true_iff.mpr (mem_namesakes hident).2)
    obtain ⟨bound, hget⟩ := Option.isSome_iff_exists.mp hbound
    exact hget.trans
      (Substitution.get?_of_le (le_trans (Substitution.bind_le hbind) hle) hget).symm
  rw [relatedName_eq_nameAfter hbinds, hname] at hbind
  obtain ⟨bound, hget, heq⟩ := Substitution.exists_get?_of_bind hbind
  refine ⟨bound, Substitution.get?_of_le hle hget, heq, fun hfree => ?_⟩
  have hfresh : mid.get? (.name related.name) = none := by
    rw [← Substitution.bindsName_eq_false_iff, hbinds, hfree, namesBefore_self]
    rfl
  rw [Substitution.get?_of_bind_fresh hfresh hbind] at hget
  exact (Option.some.inj hget).symm

/-! ## 4. Naming in another order -/

end Trial

/-- A name that is free, or bound already to what it is to be bound to, is bound as in another
    substitution. -/
theorem Substitution.exists_bind_of_alike {subst mid last : Substitution} {ident : String}
    {type other bound : TypeExpr} {alike : Prop} (hmid : subst ≤ mid) (hlast : subst ≤ last)
    (hself : mid.bindsName ident = subst.bindsName ident) (hget : last.getName? ident = some bound)
    (heq : bound.equivalent other = true) (hfresh : subst.bindsName ident = false → bound = other)
    (hbound : subst.bindsName ident = true → alike) (htype : alike → type = other) :
    ∃ grown, mid.bind (.name ident) type = .ok grown ∧
      (alike → grown.getName? ident = last.getName? ident) := by
  cases hsubst : subst.bindsName ident with
  | true =>
    obtain ⟨value, hvalue⟩ := Option.isSome_iff_exists.mp hsubst
    have hmid := get?_of_le hmid hvalue
    have hlast := get?_of_le hlast hvalue
    cases hget.symm.trans hlast
    rw [htype (hbound hsubst)]
    exact ⟨mid, bind_eq_ok_iff.mpr (.inr ⟨bound, hmid, heq, rfl⟩), fun _ => hmid.trans hlast.symm⟩
  | false =>
    have hfree : mid.get? (.name ident) = none :=
      bindsName_eq_false_iff.mp (hself.trans hsubst)
    have hbind : mid.bind (.name ident) type = .ok (mid.extend (.name ident) type hfree) :=
      bind_of_get?_eq_none hfree
    refine ⟨_, hbind, fun halike => ?_⟩
    rw [hget, hfresh hsubst, ← htype halike]
    exact get?_of_bind_fresh hfree hbind

namespace Trial

variable {trial other : Trial} {candidate related : TypeDecl} {subst mid last : Substitution}

/-- Whether a related type has the same namesakes in both trials, and those that are named as well
    get the same names. -/
inductive NamedAlike (trial other : Trial) (subst : Substitution) : TypeDecl → Prop where
  | of_namesakes {related : TypeDecl}
      (hsame : other.namesakes subst related = trial.namesakes subst related)
      (halike : ∀ namesake ∈ trial.related, namesake.name ∈ trial.namesakes subst related →
        subst.bindsName namesake.name = false → NamedAlike trial other subst namesake) :
      NamedAlike trial other subst related

/-- If no related type changes its place with one that its definition mentions, all of them are
    named alike. -/
theorem namedAlike_of_namesBefore_eq (hoptions : other.options = trial.options)
    (hnodup : (trial.related.map (·.name)).Nodup)
    (h : ∀ related ∈ trial.related, ∀ ident ∈ related.type.names,
      other.namesBefore related ident = trial.namesBefore related ident) (subst : Substitution) :
    ∀ related ∈ trial.related, trial.NamedAlike other subst related := by
  suffices hprefix : ∀ before after, trial.related = before ++ after →
      ∀ related ∈ before, trial.NamedAlike other subst related from
    hprefix trial.related [] (List.append_nil _).symm
  intro before
  induction before using List.reverseRecOn with
  | nil => exact fun _ _ => nofun
  | append_singleton before decl ih =>
    intro after hsplit found hmem
    rw [List.append_assoc, List.singleton_append] at hsplit
    rcases List.mem_append.mp hmem with hmem | hmem
    · exact ih _ hsplit found hmem
    rw [List.mem_singleton.mp hmem]
    have hdecl : decl ∈ trial.related := hsplit ▸ List.mem_append_right _ List.mem_cons_self
    refine .of_namesakes (namesakes_congr hoptions fun ident hident =>
      congrArg (subst.bindsName ident || ·) (h decl hdecl ident hident)) ?_
    intro namesake hnamesake hident hfree
    -- a namesake that is not bound yet comes before
    have hbefore := (mem_namesakes hident).2.resolve_left (by rw [hfree]; exact Bool.false_ne_true)
    rw [namesBefore_eq_any hnodup hsplit] at hbefore
    obtain ⟨other, hother, e⟩ := List.any_eq_true.mp hbefore
    have hsame : other = namesake := List.inj_on_of_nodup_map hnodup
      (hsplit ▸ List.mem_append_left _ hother) hnamesake (eq_of_beq e)
    exact hsame ▸ ih _ hsplit other hother

/-- A type that is named alike gets the same name when it is its turn, if those named before it
    did. -/
theorem nameAfter_eq_of_namedAlike {before : List TypeDecl}
    (hoptions : other.options = trial.options) (hmid : subst ≤ mid) (hlast : subst ≤ last)
    (hbefore : ∀ ident, other.namesBefore related ident = before.any (·.name == ident))
    (hrelated : ∀ decl ∈ before, decl ∈ trial.related)
    (halike : ∀ decl ∈ before, trial.NamedAlike other subst decl →
      mid.getName? decl.name = last.getName? decl.name)
    (h : trial.NamedAlike other subst related) :
    other.nameAfter candidate related (other.namesakes subst related) mid =
      trial.nameAfter candidate related (trial.namesakes subst related) last := by
  obtain ⟨hsame, hnamesakes⟩ := h
  have hoptions : other.nameAfter candidate related (trial.namesakes subst related) mid =
      trial.nameAfter candidate related (trial.namesakes subst related) mid := by
    rw [nameAfter, hoptions, nameAfter]
  rw [hsame, hoptions]
  refine nameAfter_congr fun ident hident => ?_
  cases hbound : subst.bindsName ident with
  | true =>
    obtain ⟨value, hvalue⟩ := Option.isSome_iff_exists.mp hbound
    exact (Substitution.get?_of_le hmid hvalue).trans (Substitution.get?_of_le hlast hvalue).symm
  | false =>
    have hnamed := (mem_namesakes (hsame ▸ hident)).2.resolve_left
      (by rw [hbound]; exact Bool.false_ne_true)
    rw [hbefore] at hnamed
    obtain ⟨decl, hdecl, e⟩ := List.any_eq_true.mp hnamed
    cases eq_of_beq e
    exact halike decl hdecl (hnamesakes decl (hrelated decl hdecl) hident hbound)

section InAnotherOrder

variable (hoptions : other.options = trial.options) (hperm : other.related.Perm trial.related)
  (hnodup : (trial.related.map (·.name)).Nodup)
  (hbound : ∀ related ∈ trial.related, subst.bindsName related.name = true →
    trial.NamedAlike other subst related)
  (h : trial.bindRelated candidate trial.related subst = .ok last)

include hoptions hperm hnodup hbound h

/-- After the types to its left, a related type can be named as well, and gets the name that it has
    in the first order if it is named alike. -/
theorem exists_bindRelated_concat {before after : List TypeDecl}
    (hsplit : other.related = before ++ related :: after)
    (hmid : other.bindRelated candidate before subst = .ok mid)
    (halike : ∀ decl ∈ before, trial.NamedAlike other subst decl →
      mid.getName? decl.name = last.getName? decl.name) :
    ∃ grown, other.bindRelated candidate (before ++ [related]) subst = .ok grown ∧
      ∀ decl ∈ before ++ [related], trial.NamedAlike other subst decl →
        grown.getName? decl.name = last.getName? decl.name := by
  have hmem : related ∈ trial.related :=
    hperm.mem_iff.mp (hsplit ▸ List.mem_append_right _ List.mem_cons_self)
  have hrelated : ∀ decl ∈ before, decl ∈ trial.related :=
    fun decl hdecl => hperm.mem_iff.mp (hsplit ▸ List.mem_append_left _ hdecl)
  have hbefore := namesBefore_eq_any ((hperm.map (·.name)).nodup_iff.mpr hnodup) hsplit
  have hbinds : ∀ ident, mid.bindsName ident =
      (subst.bindsName ident || other.namesBefore related ident) := by
    intro ident
    rw [hbefore, bindsName_of_bindRelated_eq hmid]
  have hself : mid.bindsName related.name = subst.bindsName related.name := by
    rw [hbinds, namesBefore_self, Bool.or_false]
  obtain ⟨bound, hget, heq, hfresh⟩ := bound_of_bindRelated hnodup h hmem
  obtain ⟨grown, hgrown, hlast⟩ := Substitution.exists_bind_of_alike (le_of_bindRelated hmid)
    (le_of_bindRelated h) hself hget heq hfresh (hbound related hmem) fun hrelated' =>
      congrArg TypeExpr.name (nameAfter_eq_of_namedAlike hoptions (le_of_bindRelated hmid)
        (le_of_bindRelated h) hbefore hrelated halike hrelated')
  refine ⟨grown, ?_, fun decl hdecl hdecl' => ?_⟩
  · rw [← relatedName_eq_nameAfter hbinds] at hgrown
    rw [bindRelated_append]
    refine bind_eq_ok.mpr ⟨mid, hmid, ?_⟩
    rw [bindRelated, hgrown]
    rfl
  · rcases List.mem_append.mp hdecl with hdecl | hdecl
    · have hne : decl.name ≠ related.name := by
        intro e
        have hnone := namesBefore_self other related
        rw [hbefore, List.any_eq_false] at hnone
        exact hnone decl hdecl (e ▸ beq_self_eq_true _)
      rw [Substitution.getName?_of_bind_ne hne hgrown]
      exact halike decl hdecl hdecl'
    · cases List.mem_singleton.mp hdecl
      exact hlast hdecl'

/-- **The related types can be named in another order**, if those that are bound already are named
    alike, and all that are named alike get the same names. The induction is on the types that are
    named, from the first one on. -/
theorem exists_bindRelated_of_namedAlike :
    ∃ found, other.bindRelated candidate other.related subst = .ok found ∧
      ∀ key, (∀ related ∈ trial.related, key = .name related.name →
        trial.NamedAlike other subst related) → found.get? key = last.get? key := by
  have hprefix : ∀ before after, other.related = before ++ after →
      ∃ mid, other.bindRelated candidate before subst = .ok mid ∧
        ∀ decl ∈ before, trial.NamedAlike other subst decl →
          mid.getName? decl.name = last.getName? decl.name := by
    intro before
    induction before using List.reverseRecOn with
    | nil => exact fun _ _ => ⟨subst, rfl, nofun⟩
    | append_singleton before related ih =>
      intro after hsplit
      rw [List.append_assoc, List.singleton_append] at hsplit
      obtain ⟨mid, hmid, halike⟩ := ih _ hsplit
      exact exists_bindRelated_concat hoptions hperm hnodup hbound h hsplit hmid halike
  obtain ⟨found, hfound, halike⟩ := hprefix other.related [] (List.append_nil _).symm
  refine ⟨found, hfound, fun key hkey => ?_⟩
  by_cases hrelated : ∃ decl ∈ other.related, key = .name decl.name
  · obtain ⟨decl, hmem, rfl⟩ := hrelated
    exact halike decl hmem (hkey decl (hperm.mem_iff.mp hmem) rfl)
  · rw [get?_of_bindRelated hfound fun decl hmem e => hrelated ⟨decl, hmem, e⟩,
      get?_of_bindRelated h fun decl hmem e => hrelated ⟨decl, hperm.mem_iff.mpr hmem, e⟩]

end InAnotherOrder

/-! ## 5. Types that are bound by a match -/

/-- Implementing the targets settles the definitions of all names that it binds. -/
theorem settlesBound_of_bindAll {options : Options} {template provider : SourceFile}
    {primary : TypeDecl} {others : List TypeDecl}
    (htargets : (Trial.of options template provider).targets = primary :: others)
    (h : (Trial.of options template provider).bindAll primary others candidate = .ok last) :
    (Trial.of options template provider).matcher.SettlesBound last := by
  have hlookup : ∀ target ∈ primary :: others,
      template.scope.lookup target.name = some target := by
    intro target hmem
    rw [← htargets, mem_targets_of] at hmem
    exact Scope.lookup_of_mem hmem.1
  obtain ⟨first, hfirst, hrest⟩ := bind_eq_ok.mp h
  have hsettles := Matcher.settlesBound_of_unifyDecl hfirst
    (hlookup primary List.mem_cons_self) nofun
  have hothers := fun target hmem => hlookup target (List.mem_cons_of_mem primary hmem)
  clear h hfirst hlookup htargets
  revert hothers hsettles
  refine bindRest_induction _ (motive := fun targets _ subst =>
    (Trial.of options template provider).matcher.SettlesBound subst →
      (∀ target ∈ targets, template.scope.lookup target.name = some target) →
        (Trial.of options template provider).matcher.SettlesBound last)
    (fun _ hlast _ => hlast) ?_ ?_ hrest
  · intro target rest consumed subst _ _ ih hsettles hlookup
    exact ih hsettles fun other hmem => hlookup other (List.mem_cons_of_mem _ hmem)
  · intro target rest consumed subst candidate grown _ _ _ hunify _ ih hsettles hlookup
    exact ih (Matcher.settlesBound_of_unifyDecl hunify (hlookup target List.mem_cons_self) hsettles)
      fun other hmem => hlookup other (List.mem_cons_of_mem _ hmem)

/-- **A related type that is bound by a match is named alike in every order**: the match has bound
    all declared names in its definition. -/
theorem namedAlike_of_bindsName (hoptions : other.options = trial.options)
    (hperm : other.related.Perm trial.related)
    (hlookup : ∀ decl ∈ trial.related, trial.matcher.template.lookup decl.name = some decl)
    (hsettles : trial.matcher.SettlesBound subst) (hmem : related ∈ trial.related)
    (hbound : subst.bindsName related.name = true) (hparsed : related.type.IsParsed) :
    trial.NamedAlike other subst related := by
  have hnames : ∀ ident ∈ related.type.names, (∃ decl ∈ trial.related, decl.name = ident) →
      subst.bindsName ident = true := by
    rintro _ hident ⟨decl, hdecl, rfl⟩
    have hdef : related.isPlaceholder = false := by
      by_contra hvar
      rw [TypeDecl.names_of_isPlaceholder (by simpa using hvar)] at hident
      cases hident
    obtain ⟨found, hfound⟩ := hsettles _ _ hbound (hlookup related hmem) hdef
    exact hfound.binds_of_reaches hsettles (hparsed.reaches_of_mem_names (.name _) hident)
      (Option.isSome_of_eq_some (hlookup decl hdecl))
  refine .of_namesakes (namesakes_congr hoptions fun ident hident => ?_) ?_
  · by_cases hdecl : ∃ decl ∈ trial.related, decl.name = ident
    · rw [hnames ident hident hdecl]
      rfl
    · have hbefore : trial.namesBefore related ident = false := by
        by_contra h
        exact hdecl (exists_of_namesBefore (by simpa using h))
      have hbefore' : other.namesBefore related ident = false := by
        by_contra h
        obtain ⟨decl, hmem, e⟩ := exists_of_namesBefore (by simpa using h)
        exact hdecl ⟨decl, hperm.mem_iff.mp hmem, e⟩
      rw [hbefore, hbefore']
  · intro namesake hnamesake hident hfree
    rw [hnames _ (mem_namesakes hident).1 ⟨namesake, hnamesake, rfl⟩] at hfree
    cases hfree

end Trial

end GoStencil
