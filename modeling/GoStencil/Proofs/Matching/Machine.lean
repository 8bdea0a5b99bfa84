import GoStencil.Proofs.Matching.Goals
import GoStencil.Proofs.Scopes

/-!
# Matching as a run of a machine

Matching works off a list of goals: the first goal is replaced by the goals for its parts, until
none is left or one fails.

* `Matcher.step`: what one goal becomes. A declared name is bound here, before its definition
  becomes a goal.
* `Matcher.Runs`: whole runs. `runs_unify` and `Runs.eq` say that goals run to the result of
  `Matcher.unify`, and to no other: the bound on the depth of `Matcher.matchName` is never what
  ends a match.
-/

namespace GoStencil

/-! ## 1. Matching grows substitutions -/

section Growth

variable {matchName other : NameMatcher} {resolve : TypeExpr → TypeExpr}

/-- Every success extends the substitution. -/
def NameMatcher.Grows (matchName : NameMatcher) : Prop :=
  ∀ ident candidate subst grown, matchName ident candidate subst = .ok grown → subst ≤ grown

theorem TypeExpr.matchWith_variadic (elem candidate : TypeExpr) (subst : Substitution) :
    (TypeExpr.variadic elem).matchWith matchName resolve candidate subst =
      elem.matchWith matchName resolve candidate.variadicElem subst := by
  cases candidate <;> simp [TypeExpr.matchWith, variadicElem]

theorem Goal.le_of_matchAll {goals : List Goal} {subst grown : Substitution}
    (hgoal : ∀ goal ∈ goals, ∀ subst grown,
      goal.matchWith matchName resolve subst = .ok grown → subst ≤ grown)
    (h : matchAll matchName resolve goals subst = .ok grown) : subst ≤ grown := by
  induction goals generalizing subst with
  | nil =>
    cases h
    exact le_refl _
  | cons goal goals ih =>
    rw [matchAll_cons] at h
    obtain ⟨mid, hfirst, hrest⟩ := bind_eq_ok.mp h
    exact le_trans (hgoal goal List.mem_cons_self subst mid hfirst)
      (ih (fun goal hmem => hgoal goal (List.mem_cons_of_mem _ hmem)) hrest)

theorem TypeExpr.le_of_matchWith (hname : matchName.Grows) (template : TypeExpr) :
    ∀ {candidate : TypeExpr} {subst grown : Substitution},
      template.matchWith matchName resolve candidate subst = .ok grown → subst ≤ grown := by
  induction template using TypeExpr.goalInduction with
  | name ident =>
    intro candidate subst grown h
    exact hname ident candidate subst grown h
  | paren inner ih =>
    intro candidate subst grown h
    exact ih h
  | variadic elem ih =>
    intro candidate subst grown h
    rw [matchWith_variadic] at h
    exact ih h
  | universal =>
    intro candidate subst grown h
    exact Substitution.bind_le h
  | structural template hs ih =>
    intro candidate subst grown h
    rw [matchWith_eq_matchAll matchName resolve hs] at h
    refine Goal.le_of_matchAll (fun goal hmem subst grown hgoal => ?_) h
    cases goal with
    | pair left right => exact ih _ left right hmem hgoal
    | fail cause => cases hgoal

/-- Matching depends on the treatment of names only at substitutions that the match can reach. -/
theorem Goal.matchAll_congr {goals : List Goal} {subst : Substitution}
    (hname : matchName.Grows)
    (hgoal : ∀ goal ∈ goals, ∀ grown, subst ≤ grown →
      goal.matchWith matchName resolve grown = goal.matchWith other resolve grown) :
    matchAll matchName resolve goals subst = matchAll other resolve goals subst := by
  induction goals generalizing subst with
  | nil => rfl
  | cons goal goals ih =>
    rw [matchAll_cons, matchAll_cons, ← hgoal goal List.mem_cons_self subst (le_refl _)]
    cases hfirst : goal.matchWith matchName resolve subst with
    | error cause => rfl
    | ok mid =>
      have hle : subst ≤ mid := by
        cases goal with
        | pair left right => exact TypeExpr.le_of_matchWith hname left hfirst
        | fail cause => cases hfirst
      exact ih fun goal hmem grown hmid =>
        hgoal goal (List.mem_cons_of_mem _ hmem) grown (le_trans hle hmid)

theorem TypeExpr.matchWith_congr (hname : matchName.Grows) (template : TypeExpr) :
    ∀ {subst : Substitution}, (∀ ident candidate grown, subst ≤ grown →
      matchName ident candidate grown = other ident candidate grown) → ∀ candidate,
      template.matchWith matchName resolve candidate subst =
        template.matchWith other resolve candidate subst := by
  induction template using TypeExpr.goalInduction with
  | name ident =>
    intro subst h candidate
    exact h ident candidate subst (le_refl _)
  | paren inner ih =>
    intro subst h candidate
    exact ih h candidate
  | variadic elem ih =>
    intro subst h candidate
    rw [matchWith_variadic, matchWith_variadic]
    exact ih h candidate.variadicElem
  | universal =>
    intro subst h candidate
    rfl
  | structural template hs ih =>
    intro subst h candidate
    rw [matchWith_eq_matchAll matchName resolve hs, matchWith_eq_matchAll other resolve hs]
    refine Goal.matchAll_congr hname fun goal hmem grown hle => ?_
    cases goal with
    | pair left right =>
      exact ih _ left right hmem
        (fun ident candidate last hlast => h ident candidate last (le_trans hle hlast)) right
    | fail cause => rfl

end Growth

/-! ## 2. The bound on the depth is never reached -/

namespace Matcher

variable (matcher : Matcher)

/-- How many declarations of the template have names that are not bound yet. -/
def unbound (subst : Substitution) : Nat :=
  matcher.template.types.countP fun decl => !subst.bindsName decl.name

theorem unbound_le_length (subst : Substitution) :
    matcher.unbound subst ≤ matcher.template.types.length :=
  List.countP_le_length

variable {matcher} {subst grown : Substitution}

theorem countP_unbound_le (h : subst ≤ grown) (decls : List TypeDecl) :
    (decls.countP fun decl => !grown.bindsName decl.name) ≤
      decls.countP fun decl => !subst.bindsName decl.name := by
  refine List.countP_mono_left fun decl _ hgrown => ?_
  cases hs : subst.bindsName decl.name with
  | false => rfl
  | true =>
    rw [Substitution.bindsName_of_le h hs] at hgrown
    cases hgrown

theorem unbound_le_of_le (matcher : Matcher) {subst grown : Substitution} (h : subst ≤ grown) :
    matcher.unbound grown ≤ matcher.unbound subst :=
  countP_unbound_le h matcher.template.types

/-- Binding the name of a declaration leaves fewer declarations unbound. -/
theorem unbound_lt_of_lookup {ident : String} {decl : TypeDecl}
    (hdecl : matcher.template.lookup ident = some decl) (hle : subst ≤ grown)
    (hfree : subst.bindsName ident = false) (hbound : grown.bindsName ident = true) :
    matcher.unbound grown < matcher.unbound subst := by
  obtain ⟨before, after, hsplit⟩ := List.append_of_mem (Scope.mem_of_lookup hdecl)
  have hb := countP_unbound_le hle before
  have ha := countP_unbound_le hle after
  rw [unbound, unbound, hsplit, List.countP_append, List.countP_append, List.countP_cons,
    List.countP_cons, Scope.name_of_lookup hdecl, hfree, hbound]
  simp only [Bool.not_true, Bool.false_eq_true, if_false, Bool.not_false, if_true]
  omega

theorem matchName_grows (depth : Nat) : NameMatcher.Grows (matcher.matchName depth) := by
  induction depth using Nat.strongRecOn with
  | ind depth ih =>
    intro ident candidate subst grown h
    unfold matchName at h
    split at h
    · exact Substitution.bind_le h
    · split at h
      · split at h
        · cases h
          exact le_refl _
        · cases h
      · obtain ⟨mid, hbind, h⟩ := bind_eq_ok.mp h
        have hle := Substitution.bind_le hbind
        split at h
        · cases h
          exact hle
        · cases depth with
          | zero =>
            cases h
            exact hle
          | succ depth =>
            exact le_trans hle (TypeExpr.le_of_matchWith (ih depth (by omega)) _ h)

/-- Two bounds that both leave room for every unbound declaration give the same match. -/
theorem matchName_congr (depth : Nat) : ∀ {other : Nat} {ident : String} {candidate : TypeExpr}
    {subst : Substitution}, matcher.unbound subst ≤ depth → matcher.unbound subst ≤ other →
    matcher.matchName depth ident candidate subst =
      matcher.matchName other ident candidate subst := by
  induction depth using Nat.strongRecOn with
  | ind depth ih =>
    intro other ident candidate subst hdepth hother
    unfold matchName
    split
    · rfl
    · rename_i hfree
      split
      · rfl
      · rename_i decl hdecl
        cases hbind : subst.bind (.name ident) candidate with
        | error cause => rfl
        | ok mid =>
          have hlt := unbound_lt_of_lookup hdecl (Substitution.bind_le hbind) (by simpa using hfree)
            (Substitution.bindsName_of_bind hbind)
          -- the name was unbound, so neither bound is zero
          obtain ⟨depth, rfl⟩ : ∃ d, depth = d + 1 := ⟨depth - 1, by omega⟩
          obtain ⟨other, rfl⟩ : ∃ o, other = o + 1 := ⟨other - 1, by omega⟩
          have hdef : decl.type.matchWith (matcher.matchName depth) matcher.resolve candidate mid =
              decl.type.matchWith (matcher.matchName other) matcher.resolve candidate mid := by
            refine TypeExpr.matchWith_congr (matchName_grows depth) _
              (fun ident type last hle => ?_) _
            have hlast := matcher.unbound_le_of_le hle
            exact ih depth (by omega) (by omega) (by omega)
          show (if decl.isPlaceholder = true then pure mid
              else decl.type.matchWith (matcher.matchName depth) matcher.resolve candidate mid) =
            (if decl.isPlaceholder = true then pure mid
              else decl.type.matchWith (matcher.matchName other) matcher.resolve candidate mid)
          rw [hdef]

/-- **A name is matched by the declarations alone.** -/
theorem unify_name (matcher : Matcher) (ident : String) (candidate : TypeExpr)
    (subst : Substitution) :
    matcher.unify (.name ident) candidate subst =
      if subst.bindsName ident then subst.bind (.name ident) candidate
      else
        match matcher.template.lookup ident with
        | none =>
          if candidate = .name ident then .ok subst else .error (.identifier ident candidate)
        | some decl => subst.bind (.name ident) candidate >>= fun subst =>
          if decl.isPlaceholder then .ok subst else matcher.unify decl.type candidate subst := by
  show matcher.matchName matcher.template.types.length ident candidate subst = _
  have hroom := matcher.unbound_le_length subst
  generalize hlen : matcher.template.types.length = depth at hroom ⊢
  unfold matchName
  split
  · rfl
  · rename_i hfree
    cases hdecl : matcher.template.lookup ident with
    | none => rfl
    | some decl =>
      cases hbind : subst.bind (.name ident) candidate with
      | error cause => rfl
      | ok mid =>
        have hlt := unbound_lt_of_lookup hdecl (Substitution.bind_le hbind) (by simpa using hfree)
          (Substitution.bindsName_of_bind hbind)
        obtain ⟨depth, rfl⟩ : ∃ d, depth = d + 1 := ⟨depth - 1, by omega⟩
        have hdef : decl.type.matchWith (matcher.matchName depth) matcher.resolve candidate mid =
            matcher.unify decl.type candidate mid := by
          refine TypeExpr.matchWith_congr (matchName_grows depth) _
            (fun ident type last hle => ?_) _
          have hlast := matcher.unbound_le_of_le hle
          exact matchName_congr depth (by omega) (by omega)
        show (if decl.isPlaceholder = true then pure mid
            else decl.type.matchWith (matcher.matchName depth) matcher.resolve candidate mid) = _
        rw [hdef]
        rfl

theorem le_of_unify {matcher : Matcher} {template candidate : TypeExpr}
    (h : matcher.unify template candidate subst = .ok grown) : subst ≤ grown :=
  TypeExpr.le_of_matchWith (matchName_grows _) _ h

/-! ## 3. The machine -/

/-- What a template type and a candidate become: the goals that are left, and the substitution
    that has grown by at most one binding. -/
def step (matcher : Matcher) (template candidate : TypeExpr) (subst : Substitution) :
    Except Mismatch (List Goal × Substitution) :=
  match template with
  | .name ident =>
    if subst.bindsName ident then (subst.bind (.name ident) candidate).map ([], ·)
    else
      match matcher.template.lookup ident with
      | none =>
        if candidate = .name ident then .ok ([], subst) else .error (.identifier ident candidate)
      | some decl =>
        (subst.bind (.name ident) candidate).map
          (if decl.isPlaceholder then [] else [.pair decl.type candidate], ·)
  | .paren inner => .ok ([.pair inner candidate], subst)
  | .variadic elem => .ok ([.pair elem candidate.variadicElem], subst)
  | .interface .nil => (subst.bind .universal candidate).map ([], ·)
  | template => .ok (Goal.ofParts template (matcher.resolve candidate), subst)

/-- What one step can do. -/
inductive Becomes (matcher : Matcher) :
    TypeExpr → TypeExpr → Substitution → List Goal → Substitution → Prop where
  /-- A bound name takes an equivalent candidate. -/
  | bound {ident : String} {candidate type : TypeExpr} {subst : Substitution}
      (hget : subst.getName? ident = some type) (heq : type.equivalent candidate = true) :
      Becomes matcher (.name ident) candidate subst [] subst
  /-- A name that means nothing to the template takes itself. -/
  | undeclared {ident : String} {subst : Substitution} (hfree : subst.bindsName ident = false)
      (hdecl : matcher.template.lookup ident = none) :
      Becomes matcher (.name ident) (.name ident) subst [] subst
  /-- A type variable takes the candidate. -/
  | placeholder {ident : String} {candidate : TypeExpr} {decl : TypeDecl}
      {subst grown : Substitution}
      (hfree : subst.bindsName ident = false) (hdecl : matcher.template.lookup ident = some decl)
      (hvar : decl.isPlaceholder = true) (hbind : subst.bind (.name ident) candidate = .ok grown) :
      Becomes matcher (.name ident) candidate subst [] grown
  /-- Any other declared name takes the candidate, which its definition has to match. -/
  | declared {ident : String} {candidate : TypeExpr} {decl : TypeDecl} {subst grown : Substitution}
      (hfree : subst.bindsName ident = false) (hdecl : matcher.template.lookup ident = some decl)
      (hdef : decl.isPlaceholder = false) (hbind : subst.bind (.name ident) candidate = .ok grown) :
      Becomes matcher (.name ident) candidate subst [.pair decl.type candidate] grown
  | paren (inner candidate : TypeExpr) (subst : Substitution) :
      Becomes matcher (.paren inner) candidate subst [.pair inner candidate] subst
  | variadic (elem candidate : TypeExpr) (subst : Substitution) :
      Becomes matcher (.variadic elem) candidate subst [.pair elem candidate.variadicElem] subst
  /-- The empty interface takes the candidate, once for the whole template. -/
  | universal {candidate : TypeExpr} {subst grown : Substitution}
      (hbind : subst.bind .universal candidate = .ok grown) :
      Becomes matcher .emptyInterface candidate subst [] grown
  /-- Any other type is matched by its parts. -/
  | parts {template : TypeExpr} (hs : template.isStructural = true) (candidate : TypeExpr)
      (subst : Substitution) :
      Becomes matcher template candidate subst
        (Goal.ofParts template (matcher.resolve candidate)) subst

theorem map_eq_ok {ε α β : Type} {x : Except ε α} {f : α → β} {b : β}
    (h : x.map f = .ok b) : ∃ a, x = .ok a ∧ f a = b := by
  cases x with
  | error cause => cases h
  | ok a =>
    cases h
    exact ⟨a, rfl, rfl⟩

/-- **A step that succeeds is one of these.** -/
theorem becomes_of_step {matcher : Matcher} {template candidate : TypeExpr} {goals : List Goal}
    (h : matcher.step template candidate subst = .ok (goals, grown)) :
    matcher.Becomes template candidate subst goals grown := by
  have structural : template.isStructural = true →
      .ok (Goal.ofParts template (matcher.resolve candidate), subst) =
        (.ok (goals, grown) : Except Mismatch (List Goal × Substitution)) →
      matcher.Becomes template candidate subst goals grown := by
    intro hs h
    cases h
    exact .parts hs candidate subst
  cases template with
  | name ident =>
    rw [step] at h
    split at h
    · rename_i hbound
      obtain ⟨mid, hbind, e⟩ := map_eq_ok h
      cases e
      rcases Substitution.bind_eq_ok_iff.mp hbind with ⟨hnone, -⟩ | ⟨type, hget, heq, rfl⟩
      · rw [Substitution.bindsName_eq_false_iff.mpr hnone] at hbound
        cases hbound
      · exact .bound hget heq
    · rename_i hfree
      cases hdecl : matcher.template.lookup ident with
      | none =>
        simp only [hdecl] at h
        split at h
        · rename_i hname
          cases h
          rw [hname]
          exact .undeclared (by simpa using hfree) hdecl
        · cases h
      | some decl =>
        simp only [hdecl] at h
        obtain ⟨mid, hbind, e⟩ := map_eq_ok h
        cases e
        split
        · rename_i hvar
          exact .placeholder (by simpa using hfree) hdecl hvar hbind
        · rename_i hdef
          exact .declared (by simpa using hfree) hdecl (by simpa using hdef) hbind
  | paren inner =>
    cases h
    exact .paren inner candidate subst
  | variadic elem =>
    cases h
    exact .variadic elem candidate subst
  | interface members =>
    cases members with
    | nil =>
      obtain ⟨mid, hbind, e⟩ := map_eq_ok h
      cases e
      exact .universal hbind
    | cons => exact structural rfl h
  | _ => exact structural rfl h

/-- A run of the machine from some goals and a substitution to its result. -/
inductive Runs (matcher : Matcher) : List Goal → Substitution → Matched → Prop where
  | done (subst : Substitution) : Runs matcher [] subst (.ok subst)
  | fail (cause : Mismatch) (rest : List Goal) (subst : Substitution) :
      Runs matcher (.fail cause :: rest) subst (.error cause)
  | refuse {template candidate : TypeExpr} {rest : List Goal} {subst : Substitution}
      {cause : Mismatch} (h : matcher.step template candidate subst = .error cause) :
      Runs matcher (.pair template candidate :: rest) subst (.error cause)
  | step {template candidate : TypeExpr} {rest goals : List Goal} {subst mid : Substitution}
      {result : Matched} (h : matcher.step template candidate subst = .ok (goals, mid))
      (next : Runs matcher (goals ++ rest) mid result) :
      Runs matcher (.pair template candidate :: rest) subst result

/-- A run has one result. -/
theorem Runs.eq {matcher : Matcher} {goals : List Goal} {subst : Substitution}
    {left right : Matched} (h : matcher.Runs goals subst left)
    (h' : matcher.Runs goals subst right) : left = right := by
  induction h with
  | done => cases h'; rfl
  | fail => cases h'; rfl
  | refuse hstep =>
    cases h' with
    | refuse hstep' => rw [hstep] at hstep'; cases hstep'; rfl
    | step hstep' next => rw [hstep] at hstep'; cases hstep'
  | step hstep next ih =>
    cases h' with
    | refuse hstep' => rw [hstep] at hstep'; cases hstep'
    | step hstep' next' =>
      rw [hstep] at hstep'
      cases hstep'
      exact ih next'

/-- The matching of some goals, one after the other. -/
def unifyAll (matcher : Matcher) (goals : List Goal) (subst : Substitution) : Matched :=
  Goal.matchAll (matcher.matchName matcher.template.types.length) matcher.resolve goals subst

theorem unifyAll_pair (matcher : Matcher) (template candidate : TypeExpr) (subst : Substitution) :
    matcher.unifyAll [.pair template candidate] subst = matcher.unify template candidate subst :=
  Goal.matchAll_singleton ..

/-- **One step of the machine is one level of the recursion.** -/
theorem unify_eq_step (matcher : Matcher) (template candidate : TypeExpr) (subst : Substitution) :
    matcher.unify template candidate subst =
      matcher.step template candidate subst >>= fun next => matcher.unifyAll next.1 next.2 := by
  cases template with
  | name ident =>
    rw [unify_name, step]
    split
    · cases subst.bind (.name ident) candidate <;> rfl
    · cases matcher.template.lookup ident with
      | none =>
        dsimp only
        split <;> rfl
      | some decl =>
        dsimp only
        cases subst.bind (.name ident) candidate with
        | error cause => rfl
        | ok mid =>
          show (if decl.isPlaceholder = true then .ok mid else _) =
            matcher.unifyAll (if decl.isPlaceholder = true then [] else _) mid
          split
          · rfl
          · rw [unifyAll_pair]
  | paren inner => exact (matcher.unifyAll_pair ..).symm
  | variadic elem =>
    rw [unify, TypeExpr.matchWith_variadic]
    exact (matcher.unifyAll_pair ..).symm
  | interface members =>
    cases members with
    | nil =>
      show subst.bind .universal candidate = _
      rw [step]
      cases subst.bind .universal candidate <;> rfl
    | cons => exact TypeExpr.matchWith_eq_matchAll _ _ rfl ..
  | _ => exact TypeExpr.matchWith_eq_matchAll _ _ rfl ..

/-! ## 4. Every match is a run -/

theorem Runs.append {matcher : Matcher} {goals rest : List Goal} {subst mid : Substitution}
    {result : Matched} (h : matcher.Runs goals subst (.ok mid))
    (h' : matcher.Runs rest mid result) : matcher.Runs (goals ++ rest) subst result := by
  generalize hok : Except.ok mid = first at h
  induction h with
  | done =>
    cases hok
    exact h'
  | fail => cases hok
  | refuse => cases hok
  | step hstep next ih =>
    have hnext := ih hok
    rw [List.append_assoc] at hnext
    exact .step hstep hnext

theorem Runs.append_error {matcher : Matcher} {goals rest : List Goal} {subst : Substitution}
    {cause : Mismatch} (h : matcher.Runs goals subst (.error cause)) :
    matcher.Runs (goals ++ rest) subst (.error cause) := by
  generalize herror : Except.error cause = first at h
  induction h with
  | done => cases herror
  | fail => cases herror; exact .fail ..
  | refuse hstep => cases herror; exact .refuse hstep
  | step hstep next ih =>
    have hnext := ih herror
    rw [List.append_assoc] at hnext
    exact .step hstep hnext

/-- Goals that run one by one run together. -/
theorem runs_unifyAll_of_forall {matcher : Matcher} {goals : List Goal} {subst : Substitution}
    (h : ∀ left right, .pair left right ∈ goals → ∀ mid, subst ≤ mid →
      matcher.Runs [.pair left right] mid (matcher.unify left right mid)) :
    matcher.Runs goals subst (matcher.unifyAll goals subst) := by
  induction goals generalizing subst with
  | nil => exact .done subst
  | cons goal goals ih =>
    cases goal with
    | fail cause => exact .fail cause goals subst
    | pair left right =>
      have hfirst := h left right List.mem_cons_self subst (le_refl _)
      rw [unifyAll, Goal.matchAll_cons]
      change matcher.Runs ([.pair left right] ++ goals) subst
        (matcher.unify left right subst >>= matcher.unifyAll goals)
      cases hunify : matcher.unify left right subst with
      | error cause =>
        rw [hunify] at hfirst
        exact hfirst.append_error
      | ok mid =>
        rw [hunify] at hfirst
        refine hfirst.append (ih fun left right hmem last hle => ?_)
        exact h left right (List.mem_cons_of_mem _ hmem) last (le_trans (le_of_unify hunify) hle)

/-- A goal runs when the goals it becomes do. -/
theorem runs_unify_of_step {matcher : Matcher} {template candidate : TypeExpr}
    {subst : Substitution}
    (h : ∀ goals mid, matcher.step template candidate subst = .ok (goals, mid) →
      ∀ left right, .pair left right ∈ goals → ∀ last, mid ≤ last →
        matcher.Runs [.pair left right] last (matcher.unify left right last)) :
    matcher.Runs [.pair template candidate] subst (matcher.unify template candidate subst) := by
  rw [unify_eq_step]
  cases hstep : matcher.step template candidate subst with
  | error cause => exact .refuse hstep
  | ok next =>
    obtain ⟨goals, mid⟩ := next
    refine .step hstep ?_
    rw [List.append_nil]
    exact runs_unifyAll_of_forall (h goals mid hstep)

/-- **The match of a template type and a candidate is a run of the machine.** -/
theorem runs_unify (matcher : Matcher) (template candidate : TypeExpr) (subst : Substitution) :
    matcher.Runs [.pair template candidate] subst (matcher.unify template candidate subst) := by
  -- on how many declarations are unbound, and for each number on the template type
  induction hn : matcher.unbound subst using Nat.strongRecOn
    generalizing template candidate subst with
  | ind n outer =>
    have hle : matcher.unbound subst ≤ n := by omega
    clear hn
    induction template using TypeExpr.goalInduction generalizing candidate subst with
    | name ident =>
      refine runs_unify_of_step fun goals mid hstep left right hmem last hlast => ?_
      cases becomes_of_step hstep with
      | bound => cases hmem
      | undeclared => cases hmem
      | placeholder => cases hmem
      | declared hfree hdecl hdef hbind =>
        have hlt := unbound_lt_of_lookup hdecl (Substitution.bind_le hbind) hfree
          (Substitution.bindsName_of_bind hbind)
        have hrest := matcher.unbound_le_of_le hlast
        exact outer _ (by omega) left right last rfl
      | parts hs => cases hs
    | paren inner ih =>
      refine runs_unify_of_step fun goals mid hstep left right hmem last hlast => ?_
      cases hstep
      cases List.mem_singleton.mp hmem
      exact ih _ _ (Nat.le_trans (matcher.unbound_le_of_le hlast) hle)
    | variadic elem ih =>
      refine runs_unify_of_step fun goals mid hstep left right hmem last hlast => ?_
      cases hstep
      cases List.mem_singleton.mp hmem
      exact ih _ _ (Nat.le_trans (matcher.unbound_le_of_le hlast) hle)
    | universal =>
      refine runs_unify_of_step fun goals mid hstep left right hmem last hlast => ?_
      cases becomes_of_step hstep with
      | universal => cases hmem
      | parts hs => cases hs
    | structural template hs ih =>
      refine runs_unify_of_step fun goals mid hstep left right hmem last hlast => ?_
      cases becomes_of_step hstep with
      | parts =>
        exact ih _ left right hmem _ _ (Nat.le_trans (matcher.unbound_le_of_le hlast) hle)
      | _ => cases hs

/-- Matching goals one after the other is a run from all of them. -/
theorem runs_unifyAll (matcher : Matcher) (goals : List Goal) (subst : Substitution) :
    matcher.Runs goals subst (matcher.unifyAll goals subst) :=
  runs_unifyAll_of_forall fun left right _ mid _ => matcher.runs_unify left right mid

theorem run_of_unify {matcher : Matcher} {template candidate : TypeExpr} {last : Substitution}
    (h : matcher.unify template candidate subst = .ok last) :
    matcher.Runs [.pair template candidate] subst (.ok last) :=
  h ▸ matcher.runs_unify template candidate subst

/-- Induction on a run that succeeds. -/
theorem Runs.okInduction {matcher : Matcher} {last : Substitution}
    {motive : ∀ goals subst, matcher.Runs goals subst (.ok last) → Prop}
    (done : motive [] last (.done last))
    (step : ∀ {template candidate rest goals subst mid}
      (_ : matcher.Becomes template candidate subst goals mid)
      (next : matcher.Runs (goals ++ rest) mid (.ok last))
      (run : matcher.Runs (.pair template candidate :: rest) subst (.ok last)),
      motive _ _ next → motive _ _ run)
    {goals : List Goal} {subst : Substitution} (h : matcher.Runs goals subst (.ok last)) :
    motive goals subst h := by
  suffices key : ∀ {result}, matcher.Runs goals subst result → result = .ok last →
      ∀ run : matcher.Runs goals subst (.ok last), motive goals subst run from key h rfl h
  clear h
  intro result h
  induction h with
  | done =>
    intro hok run
    cases hok
    exact done
  | fail => nofun
  | refuse => nofun
  | step hstep next ih =>
    intro hok run
    subst hok
    exact step (becomes_of_step hstep) next run (ih rfl next)

theorem Becomes.le {matcher : Matcher} {template candidate : TypeExpr} {goals : List Goal}
    (h : matcher.Becomes template candidate subst goals grown) : subst ≤ grown := by
  cases h with
  | bound | undeclared | paren | «variadic» | parts => exact le_refl _
  | placeholder _ _ _ hbind | declared _ _ _ hbind | universal hbind =>
    exact Substitution.bind_le hbind

/-- **A step that binds a name leaves the definition of the name as a goal**, unless any type will
    do. -/
theorem Becomes.mem_goals_of_binds {matcher : Matcher} {template candidate type : TypeExpr}
    {goals : List Goal} {ident : String} {decl : TypeDecl}
    (hstep : matcher.Becomes template candidate subst goals grown)
    (hfree : subst.bindsName ident = false) (hget : grown.getName? ident = some type)
    (hdecl : matcher.template.lookup ident = some decl) (hdef : decl.isPlaceholder = false) :
    .pair decl.type type ∈ goals := by
  have hnone : subst.getName? ident = none := Substitution.bindsName_eq_false_iff.mp hfree
  have hold : subst.getName? ident ≠ some type := by
    rw [hnone]
    nofun
  cases hstep with
  | bound | undeclared | paren | «variadic» | parts => exact absurd hget hold
  | universal hbind =>
    rw [Substitution.getName?_of_bind_universal hbind] at hget
    exact absurd hget hold
  | @placeholder bound _ _ _ _ _ hlookup hvar hbind =>
    by_cases e : ident = bound
    · rw [e, hlookup] at hdecl
      cases hdecl
      rw [hdef] at hvar
      cases hvar
    · rw [Substitution.getName?_of_bind_ne e hbind] at hget
      exact absurd hget hold
  | @declared bound _ _ _ _ _ hlookup _ hbind =>
    by_cases e : ident = bound
    · subst e
      rw [hlookup] at hdecl
      cases hdecl
      have hfound := Substitution.get?_of_bind_fresh hnone hbind
      rw [Substitution.getName?, hfound] at hget
      cases hget
      exact List.mem_cons_self
    · rw [Substitution.getName?_of_bind_ne e hbind] at hget
      exact absurd hget hold

theorem Runs.le {matcher : Matcher} {goals : List Goal} {last : Substitution}
    (h : matcher.Runs goals subst (.ok last)) : subst ≤ last := by
  induction h using Runs.okInduction with
  | done => exact le_refl _
  | step hstep _ _ ih => exact le_trans hstep.le ih

end Matcher

end GoStencil
