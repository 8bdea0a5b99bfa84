import GoStencil.Proofs.Matching.Footprint
import GoStencil.Proofs.Specialization.Trials

/-!
# The search for the other targets

After its primary target a trial implements each target that is still open by the first provider
type left that matches, and never takes a choice back. A choice may bind what a later target needs
bound otherwise, and may use up the only type for a later target; so a trial may fail although
other choices would have gone through.

* `Trial.Assigns`: the choices that go through all targets, whatever their order of preference.
* `Turn.LeavesAlone`: a choice that no later target can feel.
* `Trial.bindRest_of_assigns`: the search succeeds when some choices go through and each of them is
  the first possible one or leaves the later ones alone.
* `Trial.run_of_assigns`: so the trial does not fail for want of a type.
* `Trial.search_loses_choices`: without these conditions it may.
-/

namespace GoStencil

/-! ## 1. Matching declarations -/

/-- Whether implementing a declaration may look at a key. -/
def Scope.ReachesFrom (scope : Scope) (target : TypeDecl) (key : Binding) : Prop :=
  key = .name target.name ∨ target.isPlaceholder = false ∧ scope.Reaches target.type key

/-- A name that is not declared reaches itself only. -/
theorem Scope.Reaches.eq_of_lookup_eq_none {scope : Scope} {ident : String} {key : Binding}
    (h : scope.Reaches (.name ident) key) (hdecl : scope.lookup ident = none) :
    key = .name ident := by
  cases h with
  | name => rfl
  | subgoal hpart => cases hpart
  | definition hfound =>
    rw [hdecl] at hfound
    cases hfound

namespace Matcher

variable {matcher : Matcher} {target candidate candidate' : TypeDecl}
  {subst other grown grown' : Substitution} {keys : Binding → Prop}

theorem unifyDecl_of_bind {mid : Substitution}
    (hbind : subst.bind (.name target.name) (.name candidate.name) = .ok mid)
    (h : target.isPlaceholder = true ∧ grown = mid ∨ target.isPlaceholder = false ∧
      matcher.unify target.type candidate.type mid = .ok grown) :
    matcher.unifyDecl target candidate subst = .ok grown := by
  refine bind_eq_ok.mpr ⟨mid, hbind, ?_⟩
  rcases h with ⟨hvar, rfl⟩ | ⟨hdef, hunify⟩
  · rw [if_pos hvar]
    rfl
  · rw [if_neg (by simp [hdef])]
    exact hunify

/-- Substitutions that agree on the keys within reach implement a declaration alike. -/
theorem exists_unifyDecl_of_agreesOn
    (h : matcher.unifyDecl target candidate subst = .ok grown)
    (hkeys : ∀ key, matcher.template.ReachesFrom target key → keys key)
    (hagrees : Substitution.AgreesOn keys subst other) :
    ∃ last, matcher.unifyDecl target candidate other = .ok last ∧
      Substitution.AgreesOn keys grown last := by
  obtain ⟨mid, hbind, hrest⟩ := unifyDecl_eq_ok h
  obtain ⟨next, hnext, hmid⟩ := hagrees.exists_bind (hkeys _ (.inl rfl)) hbind
  rcases hrest with ⟨hvar, rfl⟩ | ⟨hdef, hunify⟩
  · exact ⟨next, unifyDecl_of_bind hnext (.inl ⟨hvar, rfl⟩), hmid⟩
  · obtain ⟨last, hlast, hgrown⟩ := exists_unify_of_agreesOn hunify
      (fun key hkey => hkeys key (.inr ⟨hdef, hkey⟩)) hmid
    exact ⟨last, unifyDecl_of_bind hnext (.inr ⟨hdef, hlast⟩), hgrown⟩

/-- Which keys are bound by implementing a declaration does not depend on the candidate. -/
theorem bindsSame_of_unifyDecl (h : matcher.unifyDecl target candidate subst = .ok grown)
    (h' : matcher.unifyDecl target candidate' other = .ok grown')
    (hsame : subst.BindsSame other) : grown.BindsSame grown' := by
  obtain ⟨mid, hbind, hrest⟩ := unifyDecl_eq_ok h
  obtain ⟨mid', hbind', hrest'⟩ := unifyDecl_eq_ok h'
  have hmid : mid.BindsSame mid' := fun key => by
    rw [isSome_get?_of_bind hbind, isSome_get?_of_bind hbind', hsame key]
  rcases hrest with ⟨hvar, rfl⟩ | ⟨hdef, hunify⟩
  · rcases hrest' with ⟨-, rfl⟩ | ⟨hdef', -⟩
    · exact hmid
    · rw [hvar] at hdef'
      cases hdef'
  · rcases hrest' with ⟨hvar', -⟩ | ⟨-, hunify'⟩
    · rw [hdef] at hvar'
      cases hvar'
    · exact bindsSame_of_unify hunify hunify' hmid

end Matcher

/-! ## 2. Choices -/

/-- One choice of a search: a target is implemented by a type that is not consumed, which extends
    the substitution. -/
structure Turn where
  target : TypeDecl
  choice : TypeDecl
  consumed : List String
  before : Substitution
  after : Substitution

namespace Turn

variable (trial : Trial)

/-- Whether a type implements the target at its turn. -/
def Fits (turn : Turn) (candidate : TypeDecl) : Prop :=
  ∃ grown, trial.matcher.unifyDecl turn.target candidate turn.before = .ok grown

instance (turn : Turn) (candidate : TypeDecl) : Decidable (turn.Fits trial candidate) :=
  decidable_of_iff
    ((trial.matcher.unifyDecl turn.target candidate turn.before).toOption.isSome = true) <| by
      unfold Fits
      cases trial.matcher.unifyDecl turn.target candidate turn.before <;> simp [Except.toOption]

/-- Whether no type before the chosen one could have been chosen. -/
def IsFirst (turn : Turn) : Prop :=
  ∃ earlier later, trial.candidates = earlier ++ turn.choice :: later ∧
    ∀ candidate ∈ earlier, candidate.name ∉ turn.consumed → ¬ turn.Fits trial candidate

/-- Whether a later turn cannot feel which type is chosen: no key that is bound now is within reach
    of its target, and no type that fits now fits then. -/
structure LeavesAlone (turn later : Turn) : Prop where
  keys : ∀ key, trial.matcher.template.ReachesFrom later.target key →
    turn.after.get? key = turn.before.get? key
  types : ∀ candidate ∈ trial.candidates, turn.Fits trial candidate → ¬ later.Fits trial candidate

end Turn

namespace Trial

/-- Whether some turns go through targets in their order: a target that is bound is skipped, and
    any other one is implemented by a type that is not consumed. -/
inductive Assigns (trial : Trial) :
    List TypeDecl → List String → Substitution → List Turn → Prop where
  | done (consumed : List String) (subst : Substitution) : Assigns trial [] consumed subst []
  | bound {target : TypeDecl} {rest : List TypeDecl} {consumed : List String}
      {subst : Substitution} {turns : List Turn} (hbound : subst.bindsName target.name = true)
      (next : Assigns trial rest consumed subst turns) :
      Assigns trial (target :: rest) consumed subst turns
  | choose {target choice : TypeDecl} {rest : List TypeDecl} {consumed : List String}
      {subst grown : Substitution} {turns : List Turn}
      (hfree : subst.bindsName target.name = false) (hmem : choice ∈ trial.candidates)
      (hconsumed : choice.name ∉ consumed)
      (hunify : trial.matcher.unifyDecl target choice subst = .ok grown)
      (next : Assigns trial rest (choice.name :: consumed) grown turns) :
      Assigns trial (target :: rest) consumed subst
        (⟨target, choice, consumed, subst, grown⟩ :: turns)

/-- Whether each turn chooses the first type possible, or leaves all later turns alone. -/
def Unblocked (trial : Trial) : List Turn → Prop
  | [] => True
  | turn :: later =>
    (turn.IsFirst trial ∨ ∀ next ∈ later, turn.LeavesAlone trial next) ∧ Unblocked trial later

/-! ## 3. What the search finds -/

variable {trial : Trial} {target : TypeDecl} {consumed consumed' : List String}
  {subst subst' : Substitution}

/-- The first type that is not consumed and matches is taken. -/
theorem firstMatch_of_first {earlier later : List TypeDecl} {choice : TypeDecl}
    {grown : Substitution} (hsplit : trial.candidates = earlier ++ choice :: later)
    (hearlier : ∀ candidate ∈ earlier, candidate.name ∉ consumed →
      ∀ grown, trial.matcher.unifyDecl target candidate subst ≠ .ok grown)
    (hconsumed : choice.name ∉ consumed)
    (hunify : trial.matcher.unifyDecl target choice subst = .ok grown) :
    trial.firstMatch target consumed subst = some (choice.name, grown) := by
  unfold firstMatch
  rw [hsplit, List.findSome?_append, List.findSome?_eq_none_iff.mpr, Option.none_or,
    List.findSome?_cons, if_neg (by simpa using hconsumed), hunify]
  intro candidate hmem
  split
  · rfl
  · rename_i hfree
    split
    · rename_i grown' hunify'
      exact absurd hunify' (hearlier candidate hmem (by simpa using hfree) grown')
    · rfl

/-- Some type is taken if there is one that is not consumed and matches. -/
theorem exists_firstMatch {choice : TypeDecl} {grown : Substitution}
    (hmem : choice ∈ trial.candidates) (hconsumed : choice.name ∉ consumed)
    (hunify : trial.matcher.unifyDecl target choice subst = .ok grown) :
    ∃ name found, trial.firstMatch target consumed subst = some (name, found) := by
  cases hfirst : trial.firstMatch target consumed subst with
  | some found => exact ⟨found.1, found.2, rfl⟩
  | none =>
    have hnone := List.findSome?_eq_none_iff.mp hfirst choice hmem
    rw [if_neg (by simpa using hconsumed), hunify] at hnone
    cases hnone

/-! ## 4. The search follows the choices -/

/-- How far a search is from some turns: it has bound the same keys, those within reach of the
    turns to the same types, and has consumed the same of the types that fit at these turns. -/
structure Follows (trial : Trial) (turns : List Turn) (consumed : List String)
    (subst : Substitution) (consumed' : List String) (subst' : Substitution) : Prop where
  same : subst.BindsSame subst'
  agrees : Substitution.AgreesOn
    (fun key => ∃ turn ∈ turns, trial.matcher.template.ReachesFrom turn.target key) subst subst'
  consumed : ∀ turn ∈ turns, ∀ candidate ∈ trial.candidates, turn.Fits trial candidate →
    (candidate.name ∈ consumed ↔ candidate.name ∈ consumed')

theorem Follows.refl (trial : Trial) (turns : List Turn) (consumed : List String)
    (subst : Substitution) : trial.Follows turns consumed subst consumed subst :=
  ⟨fun _ => rfl, fun _ _ => rfl, fun _ _ _ _ _ => Iff.rfl⟩

section Turns

variable {turn : Turn} {turns : List Turn}
  (hfollows : trial.Follows (turn :: turns) turn.consumed turn.before consumed' subst')

include hfollows

/-- What fits at a turn the search can match as well. -/
theorem Follows.exists_unifyDecl {candidate : TypeDecl} {grown : Substitution}
    (h : trial.matcher.unifyDecl turn.target candidate turn.before = .ok grown) :
    ∃ last, trial.matcher.unifyDecl turn.target candidate subst' = .ok last ∧
      Substitution.AgreesOn (fun key => ∃ next ∈ turn :: turns,
        trial.matcher.template.ReachesFrom next.target key) grown last :=
  Matcher.exists_unifyDecl_of_agreesOn h (fun _ hkey => ⟨turn, List.mem_cons_self, hkey⟩)
    hfollows.agrees

theorem Follows.fits_of_unifyDecl {candidate : TypeDecl} {grown : Substitution}
    (h : trial.matcher.unifyDecl turn.target candidate subst' = .ok grown) :
    turn.Fits trial candidate := by
  obtain ⟨last, hlast, -⟩ := Matcher.exists_unifyDecl_of_agreesOn h
    (fun _ hkey => ⟨turn, List.mem_cons_self, hkey⟩) hfollows.agrees.symm
  exact ⟨last, hlast⟩

/-- A first choice is made by the search as well. -/
theorem Follows.step_of_isFirst (hfirst : turn.IsFirst trial)
    (hconsumed : turn.choice.name ∉ turn.consumed)
    (hunify : trial.matcher.unifyDecl turn.target turn.choice turn.before = .ok turn.after) :
    ∃ last, trial.firstMatch turn.target consumed' subst' = some (turn.choice.name, last) ∧
      trial.Follows turns (turn.choice.name :: turn.consumed) turn.after
        (turn.choice.name :: consumed') last := by
  obtain ⟨earlier, later, hsplit, hearlier⟩ := hfirst
  obtain ⟨last, hlast, hagrees⟩ := hfollows.exists_unifyDecl hunify
  have hmem : ∀ candidate ∈ earlier, candidate ∈ trial.candidates := fun candidate h =>
    hsplit ▸ List.mem_append_left _ h
  have hchoice : turn.choice ∈ trial.candidates :=
    hsplit ▸ List.mem_append_right _ List.mem_cons_self
  have hsearch := firstMatch_of_first hsplit (fun candidate h hfree grown hgrown => by
    have hfits := hfollows.fits_of_unifyDecl hgrown
    have hleft := hfollows.consumed turn List.mem_cons_self candidate (hmem candidate h) hfits
    exact hearlier candidate h (fun hused => hfree (hleft.mp hused)) hfits)
    (fun hused => hconsumed ((hfollows.consumed turn List.mem_cons_self turn.choice hchoice
      ⟨turn.after, hunify⟩).mpr hused)) hlast
  refine ⟨last, hsearch, Matcher.bindsSame_of_unifyDecl hunify hlast hfollows.same, ?_, ?_⟩
  · exact hagrees.mono fun key ⟨next, hnext, hkey⟩ => ⟨next, List.mem_cons_of_mem _ hnext, hkey⟩
  · intro next hnext candidate hcandidate hfits
    have hrest := hfollows.consumed next (List.mem_cons_of_mem _ hnext) candidate hcandidate hfits
    rw [List.mem_cons, List.mem_cons, hrest]

/-- Where a choice leaves all later ones alone, so does the choice that the search makes. -/
theorem Follows.step_of_leavesAlone
    (hnames : ∀ a ∈ trial.candidates, ∀ b ∈ trial.candidates, a.name = b.name → a = b)
    (halone : ∀ next ∈ turns, turn.LeavesAlone trial next)
    (hmem : turn.choice ∈ trial.candidates) (hconsumed : turn.choice.name ∉ turn.consumed)
    (hunify : trial.matcher.unifyDecl turn.target turn.choice turn.before = .ok turn.after) :
    ∃ name last, trial.firstMatch turn.target consumed' subst' = some (name, last) ∧
      trial.Follows turns (turn.choice.name :: turn.consumed) turn.after
        (name :: consumed') last := by
  obtain ⟨next, hnext, -⟩ := hfollows.exists_unifyDecl hunify
  have hfree : turn.choice.name ∉ consumed' := fun hused =>
    hconsumed ((hfollows.consumed turn List.mem_cons_self turn.choice hmem
      ⟨turn.after, hunify⟩).mpr hused)
  obtain ⟨name, last, hfirst⟩ := exists_firstMatch hmem hfree hnext
  obtain ⟨found, hfound, rfl, -, hlast⟩ := firstMatch_eq_some hfirst
  have hsame : turn.after.BindsSame last :=
    Matcher.bindsSame_of_unifyDecl hunify hlast hfollows.same
  refine ⟨found.name, last, hfirst, hsame, ?_, ?_⟩
  · intro key hkey
    obtain ⟨later, hlater, hreach⟩ := hkey
    have hold := (halone later hlater).keys key hreach
    have hagree : turn.before.get? key = subst'.get? key :=
      hfollows.agrees key ⟨later, List.mem_cons_of_mem _ hlater, hreach⟩
    -- the key is bound already, or is bound by neither of the two choices
    cases hget : subst'.get? key with
    | some bound =>
      rw [hold, hagree, hget, Substitution.get?_of_le (Matcher.le_of_unifyDecl hlast) hget]
    | none =>
      rw [hget] at hagree
      rw [hold, hagree, hsame.get?_eq_none (hold.trans hagree)]
  · intro later hlater candidate hcandidate hfits
    have hother : ∀ chosen ∈ trial.candidates, turn.Fits trial chosen →
        candidate.name ≠ chosen.name := by
      intro chosen hchosen hchosenFits e
      cases hnames candidate hcandidate chosen hchosen e
      exact (halone later hlater).types candidate hcandidate hchosenFits hfits
    have hrest := hfollows.consumed later (List.mem_cons_of_mem _ hlater) candidate hcandidate hfits
    simp only [List.mem_cons, hother turn.choice hmem ⟨turn.after, hunify⟩,
      hother found hfound (hfollows.fits_of_unifyDecl hlast), false_or, hrest]

end Turns

/-- **The search succeeds if some choices go through**, each of which is the first possible one or
    leaves the later ones alone. -/
theorem bindRest_of_assigns
    (hnames : ∀ a ∈ trial.candidates, ∀ b ∈ trial.candidates, a.name = b.name → a = b)
    {targets : List TypeDecl} {turns : List Turn}
    (h : trial.Assigns targets consumed subst turns) (hturns : trial.Unblocked turns)
    (hfollows : trial.Follows turns consumed subst consumed' subst') :
    ∃ last, trial.bindRest targets consumed' subst' = .ok last := by
  induction h generalizing consumed' subst' with
  | done => exact ⟨subst', rfl⟩
  | bound hbound _ ih =>
    rw [bindRest, if_pos (by rw [← hfollows.same.bindsName_eq, hbound])]
    exact ih hturns hfollows
  | choose hfree hmem hconsumed hunify _ ih =>
    rw [bindRest, if_neg (by rw [← hfollows.same.bindsName_eq, hfree]; exact Bool.false_ne_true)]
    obtain ⟨hturn, hlater⟩ := hturns
    rcases hturn with hfirst | halone
    · obtain ⟨last, hsearch, hnext⟩ := hfollows.step_of_isFirst hfirst hconsumed hunify
      rw [hsearch]
      exact ih hlater hnext
    · obtain ⟨name, last, hsearch, hnext⟩ :=
        hfollows.step_of_leavesAlone hnames halone hmem hconsumed hunify
      rw [hsearch]
      exact ih hlater hnext

/-! ## 5. Trials -/

/-- Naming the related types never fails for want of a type. -/
theorem rootCause_of_bindRelated {candidate : TypeDecl} {cause : Mismatch} {name : String} :
    ∀ {decls : List TypeDecl} {subst : Substitution},
      trial.bindRelated candidate decls subst = .error cause → cause.rootCause ≠ .unsatisfied name
  | [], _, h => by cases h
  | decl :: rest, subst, h => by
    unfold bindRelated at h
    dsimp only at h
    split at h
    · exact rootCause_of_bindRelated h
    · rename_i hbind
      cases h
      obtain ⟨bound, rfl⟩ := Substitution.eq_inconsistent_of_bind hbind
      nofun

/-- **A trial does not fail for want of a type if some choices go through**, each of which takes the
    first possible type or leaves the later ones alone. -/
theorem run_of_assigns {options : Options} {template provider : SourceFile}
    {primary candidate : TypeDecl} {others : List TypeDecl} {first : Substitution}
    {turns : List Turn}
    (hprimary : (Trial.of options template provider).matcher.unifyDecl primary candidate .empty =
      .ok first)
    (hassigns : (Trial.of options template provider).Assigns others [candidate.name] first turns)
    (hunblocked : (Trial.of options template provider).Unblocked turns) :
    (∃ subst, (Trial.of options template provider).bindAll primary others candidate = .ok subst) ∧
      ∀ cause, (Trial.of options template provider).run primary others candidate = .error cause →
        ∀ name, cause.rootCause ≠ .unsatisfied name := by
  have hnames : ∀ a ∈ (Trial.of options template provider).candidates,
      ∀ b ∈ (Trial.of options template provider).candidates, a.name = b.name → a = b :=
    fun a ha b hb => Scope.eq_of_name_eq (Scope.mem_mostStructuredFirst.mp ha)
      (Scope.mem_mostStructuredFirst.mp hb)
  obtain ⟨last, hlast⟩ := bindRest_of_assigns hnames hassigns hunblocked (.refl ..)
  have hall : (Trial.of options template provider).bindAll primary others candidate = .ok last :=
    bind_eq_ok.mpr ⟨first, hprimary, hlast⟩
  refine ⟨⟨last, hall⟩, fun cause hrun name => ?_⟩
  rw [run_of_bindAll hall] at hrun
  cases hrelated : (Trial.of options template provider).bindRelated candidate
      (Trial.of options template provider).related last with
  | error found =>
    rw [hrelated] at hrun
    cases hrun
    exact rootCause_of_bindRelated hrelated
  | ok final =>
    rw [hrelated] at hrun
    cases hrun

/-! ## 6. Choices that are lost -/

/-- Whether a trial fails for want of a type although some choices go through all its targets. -/
def LosesChoices (trial : Trial) : Prop :=
  ∃ primary others candidate first turns, trial.targets = primary :: others ∧
    candidate ∈ trial.candidates ∧
    trial.matcher.unifyDecl primary candidate .empty = .ok first ∧
    trial.Assigns others [candidate.name] first turns ∧
    ∃ cause name, trial.run primary others candidate = .error cause ∧
      cause.rootCause = .unsatisfied name

/-- A type that is more structured than all others here. -/
def cube : TypeExpr :=
  .array none (.array none (.sliceOf "int"))

def tally : TypeExpr :=
  .map (.name "string") (.name "int")

/-- A provider with two types, `Ints` and `Words`, that can be a list. -/
def listsProvider : SourceFile :=
  .ofTypes "lists" [.of "Cube" cube, .of "Ints" (.sliceOf "int"),
    .of "Words" (.sliceOf "string"), .of "Feed" (.channelOf "string"),
    .of "Counts" tally]

/-- The trials of a template with a grid, a list of items and one more type. -/
def listsTrial (last : TypeDecl) : Trial :=
  .of .default
    (.ofTypes "lists" [.of "Item" .emptyInterface, .of "Grid" cube,
      .of "List" (.sliceOf "Item"), last])
    listsProvider

/-- The targets of `listsTrial` after the grid. -/
def listsRest (last : TypeDecl) : List TypeDecl :=
  [.of "List" (.sliceOf "Item"), last, .of "Item" .emptyInterface]

/-- The grid is the cube. -/
def gridBound : Substitution :=
  ⟨[(.name "Grid", .name "Cube")], by decide⟩

/-- The list is the one of words. -/
def wordsBound : Substitution :=
  ⟨[(.name "Grid", .name "Cube"), (.name "List", .name "Words"), (.name "Item", .name "string")],
    by decide⟩

/-- The choice of the words for the list, though `Ints` comes first. -/
def chooseWords : Turn :=
  ⟨.of "List" (.sliceOf "Item"), .of "Words" (.sliceOf "string"), ["Cube"], gridBound,
    wordsBound⟩

/-- The choice for the last type, after the words. -/
def chooseLast (target choice : TypeDecl) (fresh : wordsBound.get? (.name target.name) = none) :
    Turn :=
  ⟨target, choice, ["Words", "Cube"], wordsBound, wordsBound.extend _ (.name choice.name) fresh⟩

/-- A tally is not touched by the choice for the list, whichever it is. -/
theorem leavesAlone_tally : chooseWords.LeavesAlone (listsTrial (.of "Tally" tally))
    (chooseLast (.of "Tally" tally) (.of "Counts" tally) rfl) where
  keys := by
    intro key hkey
    rcases hkey with rfl | ⟨-, hreach⟩
    · rfl
    · cases hreach with
      | subgoal hpart h =>
        -- its parts are two names that the template does not declare
        rcases List.mem_cons.mp hpart with rfl | hpart
        · rw [h.eq_of_lookup_eq_none rfl]
          rfl
        · cases List.mem_singleton.mp hpart
          rw [h.eq_of_lookup_eq_none rfl]
          rfl
  types := by decide

/-- With a tally as the last type the list may be the words, which are not the first choice. -/
theorem run_of_assigns_tally :
    (∃ subst, (listsTrial (.of "Tally" tally)).bindAll (.of "Grid" cube)
      (listsRest (.of "Tally" tally)) (.of "Cube" cube) = .ok subst) ∧
    ∀ cause, (listsTrial (.of "Tally" tally)).run (.of "Grid" cube)
        (listsRest (.of "Tally" tally)) (.of "Cube" cube) = .error cause →
      ∀ name, cause.rootCause ≠ .unsatisfied name := by
  have hassigns : (listsTrial (.of "Tally" tally)).Assigns (listsRest (.of "Tally" tally))
      ["Cube"] gridBound
      [chooseWords, chooseLast (.of "Tally" tally) (.of "Counts" tally) rfl] :=
    .choose rfl (by decide) (by decide) rfl
      (.choose rfl (by decide) (by decide) rfl (.bound rfl (.done ..)))
  have hfirst : (chooseLast (.of "Tally" tally) (.of "Counts" tally) rfl).IsFirst
      (listsTrial (.of "Tally" tally)) :=
    ⟨(listsProvider.scope.types.take 4), [], rfl, by decide⟩
  refine @run_of_assigns .default _ listsProvider _ (.of "Cube" cube) _ _ _ rfl hassigns
    ⟨.inr ?_, .inl hfirst, trivial⟩
  intro next hnext
  cases List.mem_singleton.mp hnext
  exact leavesAlone_tally

/-- **The search may miss choices that go through**: the list takes `Ints`, the first type that it
    can take. Then the items are integers, which a queue of items cannot use, and `Ints` is
    used up, which is the only list of numbers. -/
theorem search_loses_choices :
    (listsTrial (.of "Queue" (.channelOf "Item"))).LosesChoices ∧
      (listsTrial (.of "Numbers" (.sliceOf "int"))).LosesChoices := by
  constructor
  · refine ⟨.of "Grid" cube, listsRest _, .of "Cube" cube, gridBound,
      [chooseWords, chooseLast (.of "Queue" (.channelOf "Item"))
        (.of "Feed" (.channelOf "string")) rfl], rfl, by decide, rfl, ?_, _, _, rfl, rfl⟩
    exact .choose rfl (by decide) (by decide) rfl
      (.choose rfl (by decide) (by decide) rfl (.bound rfl (.done ..)))
  · refine ⟨.of "Grid" cube, listsRest _, .of "Cube" cube, gridBound,
      [chooseWords, chooseLast (.of "Numbers" (.sliceOf "int")) (.of "Ints" (.sliceOf "int"))
        rfl], rfl, by decide, rfl, ?_, _, _, rfl, rfl⟩
    exact .choose rfl (by decide) (by decide) rfl
      (.choose rfl (by decide) (by decide) rfl (.bound rfl (.done ..)))

end Trial

end GoStencil
