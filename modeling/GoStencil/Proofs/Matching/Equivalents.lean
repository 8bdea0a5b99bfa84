import GoStencil.Proofs.Matching.Confluence
import GoStencil.Proofs.TypeExpr.Reread

/-!
# Equivalent candidates

A match compares candidates up to equivalence, with two exceptions, which both look at a candidate
as it is written: a name that means nothing to the template takes itself, but not itself in
parentheses, and a variadic type takes the element of a variadic candidate, but not of one in
parentheses. Where no candidate has such parentheses, equivalent candidates are matched by the same
steps.

* `TypeExpr.parensAllowed`: the parentheses that no match looks at.
* `TypeExpr.Exchangeable`: the candidates that take the place of each other.
* `Matcher.Becomes.exchange`, `Matcher.Runs.exchange`: so they do in one step and in a run.
* `Matcher.unify_exchange`: they are matched or refused alike, with results that agree.
-/

namespace GoStencil

/-! ## 1. Properties of all parts -/

theorem FieldList.everywhere_of_mem_types {p : TypeExpr → Bool} {type : TypeExpr} :
    ∀ {fields : FieldList}, fields.everywhere p = true → type ∈ fields.types →
      type.everywhere p = true
  | .nil, _, h => by cases h
  | .cons .., hall, h => by
    simp only [everywhere, Bool.and_eq_true] at hall
    rcases List.mem_cons.mp h with rfl | h
    · exact hall.1
    · exact everywhere_of_mem_types hall.2 h

/-- What holds of a type and of all its parts is inherited, if it holds of names anyway. -/
theorem hereditary_everywhere {p : TypeExpr → Bool} (hname : ∀ ident, p (.name ident) = true) :
    Hereditary fun type => type.everywhere p = true where
  package _ := hname _
  part {type part} hall hmem := by
    cases type with
    | name | qualified => cases hmem
    | pointer | array | «variadic» | paren | channel =>
      cases List.mem_singleton.mp hmem
      exact (Bool.and_eq_true_iff.mp hall).2
    | map key value =>
      simp only [TypeExpr.everywhere, Bool.and_eq_true] at hall
      rcases List.mem_cons.mp hmem with rfl | hmem
      · exact hall.2.1
      · cases List.mem_singleton.mp hmem
        exact hall.2.2
    | function params results =>
      simp only [TypeExpr.everywhere, Bool.and_eq_true] at hall
      rcases List.mem_append.mp hmem with hmem | hmem
      · exact FieldList.everywhere_of_mem_types hall.2.1 hmem
      · exact FieldList.everywhere_of_mem_types hall.2.2 hmem
    | struct | interface =>
      exact FieldList.everywhere_of_mem_types (Bool.and_eq_true_iff.mp hall).2 hmem

namespace TypeExpr

/-! ## 2. Candidates that take the place of each other -/

/-- Whether a type is not in parentheses that a match looks at. Those around a name count only if
    the name is not among the given ones. -/
def parensAllowed (known : String → Bool) : TypeExpr → Bool
  | .paren inner =>
    match inner.unparen with
    | .name ident => known ident
    | .variadic _ => false
    | _ => true
  | _ => true

/-- Whether two candidates take the place of each other: as one and the same, or as equivalent types
    without parentheses that a match looks at. -/
def Exchangeable (known : String → Bool) (candidate other : TypeExpr) : Prop :=
  candidate = other ∨
    candidate.equivalent other = true ∧ candidate.everywhere (parensAllowed known) = true ∧
      other.everywhere (parensAllowed known) = true

variable {known : String → Bool} {a b : TypeExpr}

theorem hereditary_parensAllowed (known : String → Bool) :
    Hereditary fun type => type.everywhere (parensAllowed known) = true :=
  hereditary_everywhere fun _ => rfl

theorem normal_variadicElem_unparen (h : a.everywhere (parensAllowed known) = true) :
    a.variadicElem.normal = a.unparen.variadicElem.normal := by
  cases a with
  | paren inner =>
    have hne : ∀ elem, inner.unparen ≠ .variadic elem := by
      intro elem e
      simp [everywhere, parensAllowed, e] at h
    have hsame : inner.unparen.variadicElem = inner.unparen := by
      cases hinner : inner.unparen with
      | «variadic» elem => exact absurd hinner (hne elem)
      | _ => rfl
    show inner.normal = inner.unparen.variadicElem.normal
    rw [hsame, normal_unparen]
  | _ => rfl

/-- What a variadic type takes of equivalent candidates is equivalent, unless parentheses hide a
    variadic candidate. -/
theorem equivalent_variadicElem_of_parensAllowed (ha : a.everywhere (parensAllowed known) = true)
    (hb : b.everywhere (parensAllowed known) = true) (h : a.equivalent b = true) :
    a.variadicElem.equivalent b.variadicElem = true := by
  rw [equivalent_iff_normal_eq, normal_variadicElem_unparen ha, normal_variadicElem_unparen hb]
  have hnormal : a.unparen.normal = b.unparen.normal := by
    rw [normal_unparen, normal_unparen]
    exact (equivalent_iff_normal_eq a b).mp h
  have halike := Alike.of_equivalent_unparen h
  generalize a.unparen = a at halike hnormal ⊢
  generalize b.unparen = b at halike hnormal ⊢
  cases halike with
  | «variadic» helem => exact (equivalent_iff_normal_eq _ _).mp helem
  | _ => exact hnormal

namespace Exchangeable

theorem equivalent (h : Exchangeable known a b) : a.equivalent b = true := by
  rcases h with rfl | ⟨h, -⟩
  · exact a.equivalent_refl
  · exact h

/-- An unknown name is taken for itself only. -/
theorem eq_name {ident : String} (h : Exchangeable known (.name ident) b)
    (hknown : known ident = false) : b = .name ident := by
  rcases h with rfl | ⟨heq, -, hb⟩
  · rfl
  · have halike := Alike.of_equivalent_unparen heq
    cases b with
    | paren inner =>
      -- the parentheses would be around the name
      have hinner : inner.unparen = .name ident := by
        show (TypeExpr.paren inner).unparen = _
        generalize (TypeExpr.paren inner).unparen = found at halike
        cases halike
        rfl
      simp [everywhere, parensAllowed, hinner, hknown] at hb
    | name found =>
      cases halike
      rfl
    | _ => cases halike

theorem variadicElem (h : Exchangeable known a b) :
    Exchangeable known a.variadicElem b.variadicElem := by
  rcases h with rfl | ⟨heq, ha, hb⟩
  · exact .inl rfl
  · exact .inr ⟨equivalent_variadicElem_of_parensAllowed ha hb heq,
      (hereditary_parensAllowed known).variadicElem ha,
      (hereditary_parensAllowed known).variadicElem hb⟩

end Exchangeable

end TypeExpr

/-! ## 3. Goals for such candidates -/

/-- Whether two goals ask for the same of candidates that take the place of each other, or both
    fail. -/
inductive Goal.Swaps (known : String → Bool) : Goal → Goal → Prop where
  | pair (template : TypeExpr) {candidate other : TypeExpr}
      (h : candidate.Exchangeable known other) :
      Swaps known (.pair template candidate) (.pair template other)
  | fail (cause other : Mismatch) : Swaps known (.fail cause) (.fail other)

namespace Goal

variable {known : String → Bool}

theorem Swaps.refl : ∀ goal : Goal, goal.Swaps known goal
  | .pair template _ => .pair template (.inl rfl)
  | .fail cause => .fail cause cause

theorem forall₂_swaps_pair (template : TypeExpr) {candidate other : TypeExpr}
    (h : candidate.Exchangeable known other) :
    List.Forall₂ (Swaps known) [.pair template candidate] [.pair template other] :=
  .cons (.pair template h) .nil

/-- Goals with equivalent candidates swap if no candidate is in parentheses that a match looks
    at. -/
theorem forall₂_swaps_of_like {goals others : List Goal} (h : List.Forall₂ Like goals others)
    (hgoals : ∀ goal ∈ goals,
      goal.CandidateHas fun type => type.everywhere (TypeExpr.parensAllowed known) = true)
    (hothers : ∀ goal ∈ others,
      goal.CandidateHas fun type => type.everywhere (TypeExpr.parensAllowed known) = true) :
    List.Forall₂ (Swaps known) goals others := by
  induction h with
  | nil => exact .nil
  | cons hlike _ ih =>
    simp only [List.forall_mem_cons] at hgoals hothers
    refine .cons ?_ (ih hgoals.2 hothers.2)
    cases hlike with
    | pair template heq => exact .pair template (.inr ⟨heq, hgoals.1, hothers.1⟩)
    | fail => exact .fail ..

end Goal

/-! ## 4. Steps and runs -/

theorem Scope.resolve_congr {scope : Scope} {a b : TypeExpr} (h : a.unparen = b.unparen) :
    scope.resolve a = scope.resolve b := by
  unfold Scope.resolve
  cases scope.types.length with
  | zero => exact h
  | succ steps => rw [Scope.resolveFrom, Scope.resolveFrom, h]

namespace Substitution

variable {subst other grown : Substitution} {key : Binding} {type : TypeExpr}

theorem Agrees.refl (subst : Substitution) : subst.Agrees subst := by
  intro key
  cases subst.get? key with
  | none => exact .none
  | some bound => exact .some bound.equivalent_refl

theorem Agrees.exists_get? {bound : TypeExpr} (h : subst.Agrees other)
    (hget : subst.get? key = some bound) :
    ∃ found, other.get? key = some found ∧ bound.equivalent found = true := by
  have hkey := h key
  rw [hget] at hkey
  generalize other.get? key = found at hkey
  cases hkey with
  | some heq => exact ⟨_, rfl, heq⟩

theorem Agrees.get?_eq_none (h : subst.Agrees other) (hget : subst.get? key = none) :
    other.get? key = none := by
  have hkey := h key
  rw [hget] at hkey
  generalize other.get? key = found at hkey
  cases hkey
  rfl

theorem Agrees.bindsName_eq_false {ident : String} (h : subst.Agrees other)
    (hfree : subst.bindsName ident = false) : other.bindsName ident = false :=
  bindsName_eq_false_iff.mpr (h.get?_eq_none (bindsName_eq_false_iff.mp hfree))

/-- Substitutions that agree still do when a key is bound in both, to equivalent types. -/
theorem Agrees.exists_bind {found : TypeExpr} (h : subst.Agrees other)
    (hbind : subst.bind key type = .ok grown) (heq : type.equivalent found = true) :
    ∃ last, other.bind key found = .ok last ∧ grown.Agrees last := by
  rcases bind_eq_ok_iff.mp hbind with ⟨hnone, -⟩ | ⟨bound, hget, hbound, rfl⟩
  · have hfresh := h.get?_eq_none hnone
    have hlast : other.bind key found = .ok (other.extend key found hfresh) :=
      bind_of_get?_eq_none hfresh
    refine ⟨_, hlast, fun asked => ?_⟩
    by_cases e : asked = key
    · rw [e, get?_of_bind_fresh hnone hbind, get?_of_bind_fresh hfresh hlast]
      exact .some heq
    · rw [get?_of_bind_ne e hbind, get?_of_bind_ne e hlast]
      exact h asked
  · obtain ⟨value, hvalue, hagree⟩ := h.exists_get? hget
    refine ⟨other, bind_eq_ok_iff.mpr (.inr ⟨value, hvalue, ?_, rfl⟩), h⟩
    exact TypeExpr.equivalent_trans (TypeExpr.equivalent_comm hagree)
      (TypeExpr.equivalent_trans hbound heq)

end Substitution

namespace Matcher

variable {matcher : Matcher} {known : String → Bool} {subst mid last other : Substitution}

theorem resolve_congr {a b : TypeExpr} (h : a.unparen = b.unparen) :
    matcher.resolve a = matcher.resolve b := by
  unfold Matcher.resolve
  split
  · exact Scope.resolve_congr h
  · exact h

/-- **Candidates that take the place of each other have goals that swap.** A name is looked through
    to one and the same type; of any other type the parts count. -/
theorem forall₂_swaps_ofParts {a b : TypeExpr} (template : TypeExpr) (h : a.Exchangeable known b) :
    List.Forall₂ (Goal.Swaps known) (Goal.ofParts template (matcher.resolve a))
      (Goal.ofParts template (matcher.resolve b)) := by
  rcases h with rfl | ⟨heq, ha, hb⟩
  · exact List.forall₂_same.mpr fun goal _ => .refl goal
  · have halike := TypeExpr.Alike.of_equivalent_unparen heq
    by_cases hname : ∃ ident, a.unparen = .name ident
    · obtain ⟨ident, e⟩ := hname
      have hsame : a.unparen = b.unparen := by
        rw [e] at halike ⊢
        generalize b.unparen = found at halike
        cases halike
        rfl
      rw [resolve_congr hsame]
      exact List.forall₂_same.mpr fun goal _ => .refl goal
    · have hleft : ∀ ident, a.unparen ≠ .name ident := fun ident e => hname ⟨ident, e⟩
      have hright : ∀ ident, b.unparen ≠ .name ident := by
        intro ident e
        rw [e] at halike
        generalize a.unparen = found at halike hleft
        cases halike
        exact hleft ident rfl
      rw [resolve_of_unparen_ne_name hleft, resolve_of_unparen_ne_name hright]
      have hparts := TypeExpr.hereditary_parensAllowed known
      exact Goal.forall₂_swaps_of_like (Goal.ofParts_like template halike)
        (fun goal hmem => Goal.candidateHas_of_mem_ofParts hparts (hparts.unparen ha) hmem)
        (fun goal hmem => Goal.candidateHas_of_mem_ofParts hparts (hparts.unparen hb) hmem)

/-- Whether a name means something to a match: the template declares it, or it is bound. -/
def knows (matcher : Matcher) (subst : Substitution) (ident : String) : Bool :=
  subst.bindsName ident || (matcher.template.lookup ident).isSome

/-- **One step does not tell such candidates apart.** -/
theorem Becomes.exchange {template a b : TypeExpr} {goals : List Goal}
    (hstep : matcher.Becomes template a subst goals mid) (h : a.Exchangeable known b)
    (hagrees : subst.Agrees other)
    (hknown : ∀ ident, matcher.knows subst ident = false → known ident = false) :
    ∃ others last, matcher.Becomes template b other others last ∧ mid.Agrees last ∧
      List.Forall₂ (Goal.Swaps known) goals others := by
  cases hstep with
  | bound hget heq =>
    obtain ⟨found, hfound, hagree⟩ := hagrees.exists_get? hget
    refine ⟨[], other, .bound hfound ?_, hagrees, .nil⟩
    exact TypeExpr.equivalent_trans (TypeExpr.equivalent_comm hagree)
      (TypeExpr.equivalent_trans heq h.equivalent)
  | undeclared hfree hdecl =>
    -- only here is the candidate looked at as it is written
    rw [h.eq_name (hknown _ (by simp [knows, hfree, hdecl]))]
    exact ⟨[], other, .undeclared (hagrees.bindsName_eq_false hfree) hdecl, hagrees, .nil⟩
  | placeholder hfree hdecl hvar hbind =>
    obtain ⟨last, hlast, hmid⟩ := hagrees.exists_bind hbind h.equivalent
    exact ⟨[], last, .placeholder (hagrees.bindsName_eq_false hfree) hdecl hvar hlast, hmid, .nil⟩
  | declared hfree hdecl hdef hbind =>
    obtain ⟨last, hlast, hmid⟩ := hagrees.exists_bind hbind h.equivalent
    exact ⟨_, last, .declared (hagrees.bindsName_eq_false hfree) hdecl hdef hlast, hmid,
      Goal.forall₂_swaps_pair _ h⟩
  | paren inner => exact ⟨_, other, .paren .., hagrees, Goal.forall₂_swaps_pair inner h⟩
  | «variadic» elem =>
    exact ⟨_, other, .variadic .., hagrees, Goal.forall₂_swaps_pair elem h.variadicElem⟩
  | universal hbind =>
    obtain ⟨last, hlast, hmid⟩ := hagrees.exists_bind hbind h.equivalent
    exact ⟨[], last, .universal hlast, hmid, .nil⟩
  | parts hs => exact ⟨_, other, .parts hs .., hagrees, forall₂_swaps_ofParts template h⟩

theorem knows_of_le (hle : subst ≤ mid) {ident : String} (h : matcher.knows mid ident = false) :
    matcher.knows subst ident = false := by
  simp only [knows, Bool.or_eq_false_iff] at h ⊢
  refine ⟨?_, h.2⟩
  by_contra hbound
  have := Substitution.bindsName_of_le hle (Bool.not_eq_false _ ▸ hbound)
  simp [h.1] at this

/-- **Neither does a run.** -/
theorem Runs.exchange {goals others : List Goal} (run : matcher.Runs goals subst (.ok last))
    (hgoals : List.Forall₂ (Goal.Swaps known) goals others) (hagrees : subst.Agrees other)
    (hknown : ∀ ident, matcher.knows subst ident = false → known ident = false) :
    ∃ final, matcher.Runs others other (.ok final) ∧ last.Agrees final := by
  induction run using Runs.okInduction generalizing others other with
  | done =>
    cases hgoals
    exact ⟨other, .done other, hagrees⟩
  | step hstep _ _ ih =>
    cases hgoals with
    | cons hfirst hrest =>
      cases hfirst with
      | pair template h =>
        obtain ⟨left, mid, hleft, hmid, hswaps⟩ := hstep.exchange h hagrees hknown
        obtain ⟨final, hfinal, hlast⟩ := ih (List.rel_append hswaps hrest) hmid
          fun ident hfree => hknown ident (knows_of_le hstep.le hfree)
        exact ⟨final, .step hleft.step_eq hfinal, hlast⟩

/-! ## 5. Matches -/

theorem exists_unify_of_exchangeable {template a b : TypeExpr}
    (h : a.Exchangeable (matcher.knows subst) b)
    (hlast : matcher.unify template a subst = .ok last) :
    ∃ final, matcher.unify template b subst = .ok final ∧ last.Agrees final := by
  obtain ⟨final, hfinal, hagrees⟩ := (run_of_unify hlast).exchange
    (Goal.forall₂_swaps_pair template h) (.refl subst) fun _ hfree => hfree
  exact ⟨final, (matcher.runs_unify template b subst).eq hfinal, hagrees⟩

/-- **Equivalent candidates are matched alike**, if in neither of them a name that means nothing to
    the match, or a variadic type, is in parentheses: both matches succeed or none does, and the two
    results agree. -/
theorem unify_exchange (matcher : Matcher) (template : TypeExpr) {a b : TypeExpr}
    (subst : Substitution)
    (h : a.equivalent b = true)
    (ha : a.everywhere (TypeExpr.parensAllowed (matcher.knows subst)) = true)
    (hb : b.everywhere (TypeExpr.parensAllowed (matcher.knows subst)) = true) :
    ((∃ last, matcher.unify template a subst = .ok last) ↔
      ∃ last, matcher.unify template b subst = .ok last) ∧
    ∀ last other, matcher.unify template a subst = .ok last →
      matcher.unify template b subst = .ok other → last.Agrees other := by
  have forth : a.Exchangeable (matcher.knows subst) b := .inr ⟨h, ha, hb⟩
  have back : b.Exchangeable (matcher.knows subst) a :=
    .inr ⟨TypeExpr.equivalent_comm h, hb, ha⟩
  refine ⟨⟨fun ⟨last, hlast⟩ => ?_, fun ⟨last, hlast⟩ => ?_⟩, fun last other hlast hother => ?_⟩
  · obtain ⟨final, hfinal, -⟩ := exists_unify_of_exchangeable forth hlast
    exact ⟨final, hfinal⟩
  · obtain ⟨final, hfinal, -⟩ := exists_unify_of_exchangeable back hlast
    exact ⟨final, hfinal⟩
  · obtain ⟨final, hfinal, hagrees⟩ := exists_unify_of_exchangeable forth hlast
    rw [hother] at hfinal
    cases hfinal
    exact hagrees

/-- A function from cells to their items is matched, however its candidate is written. -/
theorem unify_exchange_function :
    ∃ last other,
      ofLists.unify
        (.function (.cons [] (.pointer (.name "List")) none .nil)
          (.cons [] (.name "Item") none .nil))
        (.function (.cons ["cell"] (.pointer (.name "Cell")) none .nil)
          (.cons [] (.name "int") none .nil)) .empty = .ok last ∧
      ofLists.unify
        (.function (.cons [] (.pointer (.name "List")) none .nil)
          (.cons [] (.name "Item") none .nil))
        (.paren (.function (.cons [] (.paren (.pointer (.name "Cell"))) none .nil)
          (.cons ["item"] (.name "int") none .nil))) .empty = .ok other ∧
      last.keys = [.name "List", .name "Item"] ∧ last.Agrees other := by
  have h := ofLists.unify_exchange
    (.function (.cons [] (.pointer (.name "List")) none .nil) (.cons [] (.name "Item") none .nil))
    (a := .function (.cons ["cell"] (.pointer (.name "Cell")) none .nil)
      (.cons [] (.name "int") none .nil))
    (b := .paren (.function (.cons [] (.paren (.pointer (.name "Cell"))) none .nil)
      (.cons ["item"] (.name "int") none .nil))) .empty (by decide) (by decide) (by decide)
  obtain ⟨other, hother⟩ := h.1.mp ⟨_, rfl⟩
  exact ⟨_, other, rfl, hother, rfl, h.2 _ other rfl hother⟩

/-- Equivalence alone does not do: a name that the template does not declare takes itself, and
    refuses itself in parentheses. -/
theorem unify_refuses_parens :
    ¬ ∀ (matcher : Matcher) (template a b : TypeExpr) (subst : Substitution),
      a.equivalent b = true →
        ((∃ last, matcher.unify template a subst = .ok last) ↔
          ∃ last, matcher.unify template b subst = .ok last) := by
  intro h
  obtain ⟨last, hlast⟩ := (h ⟨⟨"t", [], []⟩, none⟩ (.name "int") (.name "int")
    (.paren (.name "int")) .empty (by decide)).mp ⟨.empty, rfl⟩
  cases hlast

end Matcher

end GoStencil
