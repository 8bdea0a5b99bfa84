import GoStencil.Proofs.Extension
import GoStencil.Proofs.Matching.ParenFree
import Mathlib.Logic.Relation

/-!
# Looking through names

A type is looked through the names at its head: parentheses come off, and a name gives way to what
it is declared as, until a name is not declared or was followed before. Declarations may lead in
circles, so the names that were followed are all that ends this.

* `Scope.turn?`: one turn of the loop; `Scope.wellFounded_turns`: it does not go on for ever.
* `Scope.exists_endsAt_resolve`: `Scope.resolve` is where the loop ends, so the bound on its steps
  is never what ends it.
* `SourceFile.Renames`, `SourceFile.RunsInto`: the names that first declarations lead to, and the
  first of them that lies on a cycle.
* `SourceFile.IsReached`: what holds of the loop in every turn.
* `SourceFile.isResolution_resolve`: looking through a type finds a definition, or the first name of
  a cycle.
-/

namespace GoStencil

/-! ## 1. The loop -/

namespace Scope

/-- A type without parentheses around it, and the names that were followed to get there, the last
    one first. -/
structure View where
  type : TypeExpr
  followed : List String

/-- The view of a type before any name is followed. -/
def View.first (type : TypeExpr) : View :=
  ⟨type.unparen, []⟩

/-- One turn of the loop: a declared name that was not followed before gives way to its
    definition. Anything else ends the loop. -/
def turn? (scope : Scope) : View → Option View
  | ⟨.name ident, followed⟩ =>
    if followed.contains ident then none
    else (scope.lookup ident).map fun decl => ⟨decl.type.unparen, ident :: followed⟩
  | _ => none

/-- Whether the loop goes from one view to another in one turn. -/
def Turns (scope : Scope) (before after : View) : Prop :=
  scope.turn? before = some after

/-- Whether the loop, begun at one view, ends at another. -/
structure EndsAt (scope : Scope) (start last : View) : Prop where
  reached : Relation.ReflTransGen scope.Turns start last
  ended : scope.turn? last = none

variable {scope : Scope} {before after : View} {seen : List String} {type : TypeExpr}

theorem turns_iff : scope.Turns before after ↔ ∃ ident decl, before.type = .name ident ∧
    ident ∉ before.followed ∧ scope.lookup ident = some decl ∧
      after = ⟨decl.type.unparen, ident :: before.followed⟩ := by
  obtain ⟨type, followed⟩ := before
  constructor
  · intro h
    unfold Turns turn? at h
    split at h
    · rename_i ident names e
      cases e
      split at h
      · cases h
      · rename_i hnew
        obtain ⟨decl, hdecl, rfl⟩ := Option.map_eq_some_iff.mp h
        exact ⟨ident, decl, rfl, by simpa using hnew, hdecl, rfl⟩
    · cases h
  · rintro ⟨ident, decl, rfl, hnew, hdecl, rfl⟩
    have hcontains : followed.contains ident = false := by simpa using hnew
    rw [Turns, turn?, hcontains, hdecl]
    rfl

/-- The loop ends at a declared name only because it was followed before. -/
theorem mem_followed_of_ended {ident : String} (hended : scope.turn? after = none)
    (hname : after.type = .name ident) (hdecl : (scope.lookup ident).isSome = true) :
    ident ∈ after.followed := by
  obtain ⟨decl, hdecl⟩ := Option.isSome_iff_exists.mp hdecl
  by_contra hnew
  have hturns : scope.Turns after _ := turns_iff.mpr ⟨ident, decl, hname, hnew, hdecl, rfl⟩
  rw [Turns, hended] at hturns
  cases hturns

theorem unseen_lt_of_turns (h : scope.Turns before after) :
    scope.unseen after.followed < scope.unseen before.followed := by
  obtain ⟨ident, decl, -, hnew, hdecl, rfl⟩ := turns_iff.mp h
  exact unseen_lt_of_lookup hdecl (by simpa using hnew)

/-- **The loop does not go on for ever**, wherever it begins. -/
theorem wellFounded_turns (scope : Scope) :
    WellFounded fun after before => scope.Turns before after :=
  Subrelation.wf (fun h => unseen_lt_of_turns h)
    (InvImage.wf (fun view : View => scope.unseen view.followed) Nat.lt_wfRel.wf)

theorem resolveFrom_of_ended (steps : Nat) (h : scope.turn? ⟨type.unparen, seen⟩ = none) :
    scope.resolveFrom steps seen type = type.unparen :=
  resolveFrom_eq_unparen steps fun _ _ hname hdecl =>
    mem_followed_of_ended h hname (Option.isSome_of_eq_some hdecl)

theorem resolveFrom_succ {ident : String} {decl : TypeDecl} (steps : Nat)
    (hname : type.unparen = .name ident) (hnew : ident ∉ seen)
    (hdecl : scope.lookup ident = some decl) :
    scope.resolveFrom (steps + 1) seen type =
      scope.resolveFrom steps (ident :: seen) decl.type := by
  rw [resolveFrom, hname]
  dsimp only
  rw [if_neg fun h => hnew (List.contains_iff_mem.mp h), hdecl]

/-- With a step for each name that is left to follow, the loop comes to its end. -/
theorem exists_endsAt_resolveFrom (steps : Nat) : ∀ {seen : List String} {type : TypeExpr},
    scope.unseen seen ≤ steps → ∃ followed,
      scope.EndsAt ⟨type.unparen, seen⟩ ⟨scope.resolveFrom steps seen type, followed⟩ := by
  induction steps with
  | zero =>
    intro seen type hsteps
    have hended : scope.turn? ⟨type.unparen, seen⟩ = none := by
      cases hturn : scope.turn? ⟨type.unparen, seen⟩ with
      | none => rfl
      | some next =>
        have hless := unseen_lt_of_turns hturn
        dsimp only at hless
        omega
    rw [resolveFrom_of_ended _ hended]
    exact ⟨seen, .refl, hended⟩
  | succ steps ih =>
    intro seen type hsteps
    cases hturn : scope.turn? ⟨type.unparen, seen⟩ with
    | none =>
      rw [resolveFrom_of_ended _ hturn]
      exact ⟨seen, .refl, hturn⟩
    | some next =>
      have hless := unseen_lt_of_turns hturn
      obtain ⟨ident, decl, hname, hnew, hdecl, rfl⟩ := turns_iff.mp hturn
      dsimp only at hless
      obtain ⟨followed, hreached, hended⟩ := @ih (ident :: seen) decl.type (by omega)
      rw [resolveFrom_succ steps hname hnew hdecl]
      exact ⟨followed, .head hturn hreached, hended⟩

/-- **Looking through a type runs the loop to its end.** -/
theorem exists_endsAt_resolve (scope : Scope) (type : TypeExpr) :
    ∃ followed, scope.EndsAt (.first type) ⟨scope.resolve type, followed⟩ :=
  exists_endsAt_resolveFrom _ (scope.unseen_le_length [])

end Scope

/-! ## 2. Names of names -/

namespace SourceFile

/-- The first type declaration of a name. -/
def firstDecl? (file : SourceFile) (name : String) : Option TypeDecl :=
  file.typeDecls.find? (·.name == name)

theorem lookup_scope (file : SourceFile) (name : String) :
    file.scope.lookup name = file.firstDecl? name :=
  find?_firstByName_eq name file.typeDecls

/-- Whether a name is declared to be another one, perhaps in parentheses. -/
def Renames (file : SourceFile) (ident other : String) : Prop :=
  ∃ decl, file.firstDecl? ident = some decl ∧ decl.type.unparen = .name other

/-- Whether the declarations of names lead from a name back to it. -/
def IsCyclic (file : SourceFile) (ident : String) : Prop :=
  Relation.TransGen file.Renames ident ident

/-- Whether the declarations of names lead from a type to a cycle of names, and reach it at this
    one. -/
def RunsInto (file : SourceFile) (type : TypeExpr) (ident : String) : Prop :=
  file.IsCyclic ident ∧ ∃ start, type.unparen = .name start ∧
    Relation.ReflTransGen (fun name other => file.Renames name other ∧ ¬ file.IsCyclic name)
      start ident

variable {file : SourceFile} {ident other start : String} {type : TypeExpr}

theorem rightUnique_renames (file : SourceFile) : Relator.RightUnique file.Renames := by
  rintro ident first second ⟨decl, hdecl, hfirst⟩ ⟨decl', hdecl', hsecond⟩
  rw [hdecl] at hdecl'
  cases hdecl'
  rw [hfirst] at hsecond
  cases hsecond
  rfl

/-- Whatever a name on a cycle leads to leads back to it. -/
theorem IsCyclic.returns (h : file.IsCyclic ident)
    (hreach : Relation.ReflTransGen file.Renames ident other) :
    Relation.TransGen file.Renames other ident := by
  induction hreach with
  | refl => exact h
  | tail _ hlast ih =>
    obtain ⟨next, hnext, hback⟩ := Relation.TransGen.head'_iff.mp ih
    cases file.rightUnique_renames hnext hlast
    exact .trans_right hback h

/-- A name that leads to a cycle is declared to be another one, which leads there as well. -/
theorem exists_renames_of_leadsToCycle
    (hreach : Relation.ReflTransGen file.Renames start ident) (hcyclic : file.IsCyclic ident) :
    ∃ next last, file.Renames start next ∧ file.IsCyclic last ∧
      Relation.ReflTransGen file.Renames next last := by
  rcases hreach.cases_head with rfl | ⟨next, hnext, hrest⟩
  · obtain ⟨next, hnext, hback⟩ := Relation.TransGen.head'_iff.mp hcyclic
    exact ⟨next, start, hnext, hcyclic, hback⟩
  · exact ⟨next, ident, hnext, hcyclic, hrest⟩

/-- A cycle is reached at one name only. -/
theorem RunsInto.unique (h : file.RunsInto type ident) (h' : file.RunsInto type other) :
    ident = other := by
  obtain ⟨hcyclic, start, hstart, hpath⟩ := h
  obtain ⟨hcyclic', start', hstart', hpath'⟩ := h'
  rw [hstart] at hstart'
  cases hstart'
  have hunique : Relator.RightUnique fun name other =>
      file.Renames name other ∧ ¬ file.IsCyclic name :=
    fun _ _ _ hfirst hsecond => file.rightUnique_renames hfirst.1 hsecond.1
  -- no step leaves a name on a cycle, so neither name is before the other
  rcases hpath.total_of_right_unique hunique hpath' with hpath | hpath
  · rcases hpath.cases_head with e | ⟨_, hstep, -⟩
    · exact e
    · exact absurd hcyclic hstep.2
  · rcases hpath.cases_head with e | ⟨_, hstep, -⟩
    · exact e.symm
    · exact absurd hcyclic' hstep.2

/-! ## 3. The names that the loop follows -/

/-- The declarations of names lead from one name to another, through these names, the last one
    first. -/
inductive Trail (file : SourceFile) (start : String) : String → List String → Prop where
  | start : Trail file start start []
  | next {ident other : String} {names : List String} (trail : Trail file start ident names)
      (hnext : file.Renames ident other) : Trail file start other (ident :: names)

namespace Trail

variable {names before after : List String}

theorem transGen_of_mem (trail : file.Trail start other names) (hmem : ident ∈ names) :
    Relation.TransGen file.Renames ident other := by
  induction trail with
  | start => cases hmem
  | next _ hnext ih =>
    rcases List.mem_cons.mp hmem with rfl | hmem
    · exact .single hnext
    · exact .tail (ih hmem) hnext

/-- A trail through a name is a trail to it and one from it. -/
theorem of_append (trail : file.Trail start other (after ++ ident :: before)) :
    file.Trail start ident before ∧ file.Trail ident other (after ++ [ident]) := by
  induction after generalizing other with
  | nil =>
    cases trail with
    | next trail hnext => exact ⟨trail, .next .start hnext⟩
  | cons name after ih =>
    cases trail with
    | next trail hnext => exact ⟨(ih trail).1, .next (ih trail).2 hnext⟩

/-- What follows a name on a trail is on the trail, or at its end. -/
theorem mem_cons_of_renames {found : String} (trail : file.Trail start other names)
    (hmem : ident ∈ names) (hfound : file.Renames ident found) : found ∈ other :: names := by
  induction trail with
  | start => cases hmem
  | next _ hnext ih =>
    rcases List.mem_cons.mp hmem with rfl | hmem
    · cases file.rightUnique_renames hfound hnext
      exact List.mem_cons_self
    · exact List.mem_cons_of_mem _ (ih hmem)

/-- A trail that comes back to where it starts has all names that can be reached. -/
theorem mem_of_reaches (trail : file.Trail ident ident (names ++ [ident]))
    (hreach : Relation.ReflTransGen file.Renames ident other) : other ∈ names ++ [ident] := by
  induction hreach with
  | refl => exact List.mem_append_right _ List.mem_cons_self
  | tail _ hlast ih =>
    rcases List.mem_cons.mp (trail.mem_cons_of_renames ih hlast) with rfl | hmem
    · exact List.mem_append_right _ List.mem_cons_self
    · exact hmem

theorem reaches_of_noneCyclic (trail : file.Trail start ident names)
    (h : ∀ name ∈ names, ¬ file.IsCyclic name) :
    Relation.ReflTransGen (fun name other => file.Renames name other ∧ ¬ file.IsCyclic name)
      start ident := by
  induction trail with
  | start => exact .refl
  | next _ hnext ih =>
    exact .tail (ih fun name hmem => h name (List.mem_cons_of_mem _ hmem))
      ⟨hnext, h _ List.mem_cons_self⟩

/-- **A trail that comes to a name again has come to a cycle there**, and none of the names before
    is on a cycle. -/
theorem runsInto (trail : file.Trail start ident names) (hnodup : names.Nodup)
    (hmem : ident ∈ names) (hstart : type.unparen = .name start) : file.RunsInto type ident := by
  have hcyclic : file.IsCyclic ident := trail.transGen_of_mem hmem
  obtain ⟨after, before, rfl⟩ := List.append_of_mem hmem
  obtain ⟨hlead, hcycle⟩ := trail.of_append
  refine ⟨hcyclic, start, hstart, hlead.reaches_of_noneCyclic fun name hname hback => ?_⟩
  -- a cycle through an earlier name would be this one, and then the name was followed twice
  have hreturn := hback.returns (hlead.transGen_of_mem hname).to_reflTransGen
  have hagain := hcycle.mem_of_reaches hreturn.to_reflTransGen
  rw [List.append_cons] at hnodup
  exact (List.nodup_append.mp hnodup).2.2 name hagain name hname rfl

end Trail

/-- What holds of the loop in every turn, when it begins at a type. -/
structure IsReached (file : SourceFile) (type : TypeExpr) (view : Scope.View) : Prop where
  nodup : view.followed.Nodup
  declared : ∀ name ∈ view.followed, (file.firstDecl? name).isSome = true
  bare : ∀ inner, view.type ≠ .paren inner
  trail : ∀ ident, view.type = .name ident →
    ∃ start, type.unparen = .name start ∧ file.Trail start ident view.followed

theorem isReached_first (file : SourceFile) (type : TypeExpr) :
    file.IsReached type (.first type) where
  nodup := List.nodup_nil
  declared := nofun
  bare := type.unparen_ne_paren
  trail ident hname := ⟨ident, hname, .start⟩

theorem IsReached.turn {before after : Scope.View} (h : file.IsReached type before)
    (hturn : file.scope.Turns before after) : file.IsReached type after := by
  obtain ⟨ident, decl, hname, hnew, hdecl, rfl⟩ := Scope.turns_iff.mp hturn
  rw [lookup_scope] at hdecl
  refine ⟨List.nodup_cons.mpr ⟨hnew, h.nodup⟩, ?_, decl.type.unparen_ne_paren, ?_⟩
  · intro name hmem
    rcases List.mem_cons.mp hmem with rfl | hmem
    · exact Option.isSome_of_eq_some hdecl
    · exact h.declared name hmem
  · intro other hother
    obtain ⟨start, hstart, trail⟩ := h.trail ident hname
    exact ⟨start, hstart, trail.next ⟨decl, hdecl, hother⟩⟩

theorem isReached_of_reached {view : Scope.View}
    (h : Relation.ReflTransGen file.scope.Turns (.first type) view) : file.IsReached type view := by
  induction h with
  | refl => exact file.isReached_first type
  | tail _ hturn ih => exact ih.turn hturn

/-- A loop that runs into a cycle is at a name in every turn, and the cycle is still ahead. -/
theorem exists_name_of_runsInto {view : Scope.View} (hinto : file.RunsInto type ident)
    (h : Relation.ReflTransGen file.scope.Turns (.first type) view) :
    ∃ name last, view.type = .name name ∧ file.IsCyclic last ∧
      Relation.ReflTransGen file.Renames name last := by
  induction h with
  | refl =>
    obtain ⟨hcyclic, start, hstart, hpath⟩ := hinto
    have hplain := Relation.ReflTransGen.mono (fun _ _ hstep => hstep.1) _ _ hpath
    exact ⟨start, ident, hstart, hcyclic, hplain⟩
  | tail _ hturn ih =>
    obtain ⟨name, last, hname, hcyclic, hpath⟩ := ih
    obtain ⟨next, last, ⟨decl, hdecl, hnext⟩, hlast⟩ :=
      exists_renames_of_leadsToCycle hpath hcyclic
    obtain ⟨found, decl', hfound, -, hdecl', rfl⟩ := Scope.turns_iff.mp hturn
    rw [hname] at hfound
    cases hfound
    rw [lookup_scope, hdecl] at hdecl'
    cases hdecl'
    exact ⟨next, last, hnext, hlast⟩

/-! ## 4. What looking through a type finds -/

/-- **A declared name is found only where declarations run into a cycle of names**, and it is the
    first name of the cycle. -/
theorem resolve_eq_name_iff (file : SourceFile) (type : TypeExpr) (ident : String) :
    file.scope.resolve type = .name ident ∧ (file.firstDecl? ident).isSome = true ↔
      file.RunsInto type ident := by
  obtain ⟨followed, hreached, hended⟩ := file.scope.exists_endsAt_resolve type
  have hview := isReached_of_reached hreached
  have runsInto_of_declared : ∀ ident, file.scope.resolve type = .name ident →
      (file.firstDecl? ident).isSome = true → file.RunsInto type ident := by
    intro ident hname hdecl
    obtain ⟨start, hstart, trail⟩ := hview.trail ident hname
    rw [← lookup_scope] at hdecl
    exact trail.runsInto hview.nodup (Scope.mem_followed_of_ended hended hname hdecl) hstart
  constructor
  · rintro ⟨hname, hdecl⟩
    exact runsInto_of_declared ident hname hdecl
  · intro hinto
    obtain ⟨name, last, hname, hcyclic, hpath⟩ := exists_name_of_runsInto hinto hreached
    obtain ⟨next, -, ⟨decl, hdecl, -⟩, -⟩ := exists_renames_of_leadsToCycle hpath hcyclic
    have hsome := Option.isSome_of_eq_some hdecl
    cases (runsInto_of_declared name hname hsome).unique hinto
    exact ⟨hname, hsome⟩

theorem resolve_ne_paren (file : SourceFile) (type inner : TypeExpr) :
    file.scope.resolve type ≠ .paren inner := by
  obtain ⟨followed, hreached, -⟩ := file.scope.exists_endsAt_resolve type
  exact (isReached_of_reached hreached).bare inner

theorem RunsInto.resolve_eq (h : file.RunsInto type ident) :
    file.scope.resolve type = .name ident :=
  ((file.resolve_eq_name_iff type ident).mpr h).1

/-- A name on a cycle is the first one that is reached from itself. -/
theorem IsCyclic.runsInto (h : file.IsCyclic ident) : file.RunsInto (.name ident) ident :=
  ⟨h, ident, rfl, .refl⟩

theorem resolve_resolve (file : SourceFile) (type : TypeExpr) :
    file.scope.resolve (file.scope.resolve type) = file.scope.resolve type := by
  by_cases h : ∃ ident, file.RunsInto type ident
  · obtain ⟨ident, hinto⟩ := h
    rw [hinto.resolve_eq]
    exact hinto.1.runsInto.resolve_eq
  · have hbare := TypeExpr.unparen_of_ne_paren (file.resolve_ne_paren type)
    rw [Scope.resolve_eq_unparen fun ident hname => ?_, hbare]
    rw [hbare] at hname
    rw [lookup_scope, ← Option.not_isSome_iff_eq_none]
    exact fun hdecl => h ⟨ident, (file.resolve_eq_name_iff type ident).mp ⟨hname, hdecl⟩⟩

/-- What looking through a type comes to. -/
structure IsResolution (file : SourceFile) (type found : TypeExpr) : Prop where
  /-- The loop does not go on for ever, wherever it begins. -/
  halts : WellFounded fun after before => file.scope.Turns before after
  /-- Begun at the type it ends at what is found, and it follows only names that are declared and
      none of them twice. -/
  loop : ∃ followed, file.scope.EndsAt (.first type) ⟨found, followed⟩ ∧ followed.Nodup ∧
    ∀ name ∈ followed, (file.firstDecl? name).isSome = true
  /-- There are no parentheses around it. -/
  bare : ∀ inner, found ≠ .paren inner
  /-- It is a declared name only if the first declarations run into a cycle of names, and then it is
      the name at which they reach the cycle. -/
  cyclic : ∀ ident, found = .name ident ∧ (file.firstDecl? ident).isSome = true ↔
    file.RunsInto type ident
  /-- Looking through it finds nothing else. -/
  stable : file.scope.resolve found = found

/-- **Looking through a type finds a definition**, unless there is none because the names lead in a
    circle. -/
theorem isResolution_resolve (file : SourceFile) (type : TypeExpr) :
    file.IsResolution type (file.scope.resolve type) := by
  obtain ⟨followed, hends⟩ := file.scope.exists_endsAt_resolve type
  have hview := isReached_of_reached hends.reached
  exact ⟨file.scope.wellFounded_turns, ⟨followed, hends, hview.nodup, hview.declared⟩,
    file.resolve_ne_paren type, file.resolve_eq_name_iff type, file.resolve_resolve type⟩

/-- `type Front (Ring)`, `type Ring Band` and `type Band (Ring)` -/
def rings : SourceFile :=
  ⟨"rings", [], [.type ⟨"Front", false, .paren (.name "Ring"), ⟨0, 0⟩⟩,
    .type ⟨"Ring", false, .name "Band", ⟨0, 0⟩⟩,
    .type ⟨"Band", false, .paren (.name "Ring"), ⟨0, 0⟩⟩], none⟩

/-- The cycle is reached at `Ring` from outside, and at each of its names from there. -/
theorem isResolution_resolve_rings :
    rings.RunsInto (.paren (.name "Front")) "Ring" ∧ rings.RunsInto (.name "Band") "Band" ∧
      ¬ ∃ ident, rings.RunsInto (.array none (.name "Ring")) ident := by
  refine ⟨?_, ?_, ?_⟩
  · exact ((isResolution_resolve rings _).cyclic "Ring").mp ⟨by decide, rfl⟩
  · exact ((isResolution_resolve rings _).cyclic "Band").mp ⟨by decide, rfl⟩
  · rintro ⟨ident, h⟩
    have hname := (((isResolution_resolve rings _).cyclic ident).mpr h).1
    cases hname

end SourceFile

end GoStencil
