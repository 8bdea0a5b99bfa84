import GoStencil.Grammar.Declarations
import GoStencil.Proofs.Grammar.Runs

/-!
# Enough steps for every text

Between two characters that are read, only so many rules can call each other: no rule calls itself
before it has read something, and what is repeated always reads something. So a number of steps
that is linear in the length of the text suffices, and the parse of a text is its reading.

* `Pattern.rank`: how deep a pattern can call before it reads a character.
* `run_finishes`: `Grammar.stepsFor` suffices. `Suffices` has one lemma for each form of pattern.
* `parse_eq_some_iff`: the tree of a text is what its rule reads.
-/

namespace GoStencil.Grammar

/-! ## 1. Ranks -/

/-- Whether a rule reads at least one character. -/
def Rule.consumes : Rule → Bool
  | .endOfInput => false
  | _ => true

/-- Whether a pattern reads at least one character for sure. -/
def Pattern.consumes : Pattern → Bool
  | .literal text => !text.isEmpty
  | .satisfy _ => true
  | .atStart | .atEnd => false
  | .call rule => rule.consumes
  | .seq first second => first.consumes || second.consumes
  | .alt first second => first.consumes && second.consumes
  | .opt _ | .many _ | .ahead _ | .notAhead _ => false

/-- How deep a rule can call before it reads a character. -/
def Rule.rank : Rule → Nat
  | .parameterDecl | .typeExprOnly => 46
  | .result | .paramType => 44
  | .typeExpr => 42
  | .methodSpec | .fieldDecl => 36
  | .importSpec | .namedParameter | .namedField | .embeddedField | .embeddedElem => 33
  | .identifierList | .importName | .qualifiedIdent | .typeName | .typeSpec | .methodElem => 30
  | .identifier => 28
  | .reserved | .bodyText | .lineText | .sourceFile | .receiver | .signature => 25
  | .packageWord | .importWord | .typeWord | .funcWord | .structWord | .interfaceWord | .mapWord
  | .chanWord | .endOfInput | .stringLit | .rawStringLit | .runeLit | .numberLit
  | .valueKeyword => 6
  | _ => 15

/-- How deep a pattern can call before it reads a character, where gaps can call as deep as
    given. -/
def Pattern.rank (gap : Nat) : Pattern → Nat
  | .literal _ | .satisfy _ | .atStart | .atEnd => 0
  | .call rule => rule.rank + 1
  | .seq first second =>
    1 + max (first.rank gap) (if first.consumes then 0 else max gap (second.rank gap))
  | .alt first second => 1 + max (first.rank gap) (second.rank gap)
  | .opt pattern | .many pattern | .ahead pattern | .notAhead pattern => 1 + pattern.rank gap

/-- Whether each round of a repetition in a pattern reads something, and the ranks of its parts
    stay within the steps that there are for one character. -/
def Pattern.isGuarded (gap : Nat) : Pattern → Bool
  | .literal _ | .satisfy _ | .atStart | .atEnd | .call _ => true
  | .seq first second =>
    first.isGuarded gap && second.isGuarded gap && decide (second.rank gap < 128)
  | .alt first second => first.isGuarded gap && second.isGuarded gap
  | .opt pattern | .ahead pattern | .notAhead pattern => pattern.isGuarded gap
  | .many pattern => pattern.consumes && pattern.isGuarded gap && decide (pattern.rank gap < 128)

/-- How deep the gaps of a mode can call. -/
def Mode.gapRank : Mode → Nat
  | .spaced => 5
  | .tight | .token => 0

theorem consumes_ruleBody (rule : Rule) (h : rule.consumes = true) :
    (ruleBody rule).consumes = true := by
  cases rule <;> first | rfl | cases h

theorem isGuarded_ruleBody (mode : Mode) (rule : Rule) :
    (ruleBody rule).isGuarded mode.gapRank = true := by
  cases mode <;> cases rule <;> decide

theorem rank_ruleBody_le (mode : Mode) (rule : Rule) :
    (ruleBody rule).rank mode.gapRank ≤ rule.rank := by
  cases mode <;> cases rule <;> decide

/-! ## 2. Reading goes on -/

theorem Cursor.Reaches.length_le {cursor last : Cursor} {cs : List Char}
    (h : cursor.Reaches last cs) : last.rest.length ≤ cursor.rest.length := by
  rw [h.1, List.length_append]
  omega

theorem Reads.length_le {grammar : Grammar} {mode : Mode} {pattern : Pattern}
    {cursor last : Cursor} {nodes : List Node}
    (h : grammar.Reads mode pattern cursor (some (nodes, last))) :
    last.rest.length ≤ cursor.rest.length := by
  obtain ⟨cs, hreaches⟩ := h.reaches
  exact hreaches.length_le

theorem Pattern.consumes_of_mayStay {pattern : Pattern} (h : pattern.mayStay = true) :
    pattern.consumes = false := by
  cases pattern <;> first | rfl | cases h

/-- A pattern that reads at least one character makes the rest of the text shorter. -/
theorem Reads.length_lt {mode : Mode} {pattern : Pattern} {cursor last : Cursor}
    {nodes : List Node} (h : declarations.Reads mode pattern cursor (some (nodes, last)))
    (hconsumes : pattern.consumes = true) : last.rest.length < cursor.rest.length := by
  refine Reads.found_induction (motive := fun _ pattern cursor _ last =>
      pattern.consumes = true → last.rest.length < cursor.rest.length)
    ?literal ?satisfy ?stay ?call ?seq ?altFirst ?altSecond ?opt ?manyLast ?manyMore h hconsumes
  case literal =>
    intro _ text cursor last hskip hconsumes
    rw [(Cursor.skip?_eq_some_iff.mp hskip).1, List.length_append]
    cases text with
    | nil => cases hconsumes
    | cons => simp
  case satisfy =>
    intro _ accepts cursor last hnext _
    obtain ⟨c, -, hreaches⟩ := Cursor.reaches_of_next? hnext
    rw [hreaches.1]
    simp
  case stay =>
    intro _ pattern _ hstay hconsumes
    rw [Pattern.consumes_of_mayStay hstay] at hconsumes
    cases hconsumes
  case call =>
    intro _ rule _ _ _ _ ih hconsumes
    exact ih (consumes_ruleBody rule hconsumes)
  case seq =>
    intro _ _ _ _ _ _ _ _ _ hfirst ihFirst hgap _ hsecond ihSecond hconsumes
    have hmid := hfirst.length_le
    have hnext := hgap.length_le
    have hlast := hsecond.length_le
    rcases Bool.or_eq_true_iff.mp hconsumes with hconsumes | hconsumes
    · have := ihFirst hconsumes
      omega
    · have := ihSecond hconsumes
      omega
  case altFirst => exact fun ih hconsumes => ih (Bool.and_eq_true_iff.mp hconsumes).1
  case altSecond => exact fun ih hconsumes => ih (Bool.and_eq_true_iff.mp hconsumes).2
  case opt | manyLast | manyMore => nofun

/-! ## 3. The steps suffice -/

theorem run_many_ne_failed {grammar : Grammar} (fuel : Nat) (mode : Mode) (pattern : Pattern)
    (cursor : Cursor) : grammar.run fuel mode (.many pattern) cursor ≠ .failed := by
  cases fuel with
  | zero => nofun
  | succ fuel =>
    rw [run_many]
    cases grammar.run fuel mode pattern cursor with
    | matched nodes mid => exact Outcome.repeated_ne_failed fuel
    | failed | unfinished => exact Outcome.noConfusion

/-- Gaps may be empty. -/
theorem gapNeverFails : declarations.GapNeverFails := by
  intro fuel cursor h
  cases fuel with
  | zero => cases h
  | succ fuel =>
    change declarations.run (fuel + 1) .token (.seq (.many _) (.many _)) cursor =
      .of none at h
    rcases Outcome.of_andThen h with ⟨hfirst, -⟩ | ⟨_, mid, found, -, hround, hfound⟩
    · exact run_many_ne_failed fuel _ _ _ hfirst
    · -- inside a token nothing stands between the two
      have hfailed : found = none := Option.map_eq_none_iff.mp hfound.symm
      subst hfailed
      rcases Outcome.of_andThen hround with ⟨hgap, -⟩ | ⟨_, next, last, -, hlast, hfound⟩
      · cases hgap
      · have hfailed : last = none := Option.map_eq_none_iff.mp hfound.symm
        subst hfailed
        exact run_many_ne_failed fuel _ _ _ hlast

/-- The steps that suffice to read a pattern before some characters. -/
def stepsBefore (mode : Mode) (pattern : Pattern) (cursor : Cursor) : Nat :=
  128 * (cursor.rest.length + 1) + pattern.rank mode.gapRank

theorem andThen_ne_unfinished {first : Outcome} {next : Cursor → Outcome}
    (hfirst : first ≠ .unfinished)
    (hnext : ∀ nodes mid, first = .matched nodes mid → next mid ≠ .unfinished) :
    first.andThen next ≠ .unfinished := by
  cases first with
  | unfinished => exact absurd rfl hfirst
  | failed => nofun
  | matched nodes mid =>
    have hmid := hnext nodes mid rfl
    unfold Outcome.andThen
    dsimp only
    split
    · nofun
    · exact hmid

/-- Rounds that each read something end. -/
theorem repeated_ne_unfinished {step : Cursor → Outcome} (rounds : Nat)
    (hlength : ∀ cursor nodes last, step cursor = .matched nodes last →
      last.rest.length < cursor.rest.length) :
    ∀ {nodes : List Node} {cursor : Cursor}, cursor.rest.length < rounds →
      (∀ next : Cursor, next.rest.length ≤ cursor.rest.length → step next ≠ .unfinished) →
      Outcome.repeated step rounds nodes cursor ≠ .unfinished := by
  induction rounds with
  | zero =>
    intro nodes cursor h
    omega
  | succ rounds ih =>
    intro nodes cursor hrounds hstep
    unfold Outcome.repeated
    split
    · rename_i more rest hmore
      have hrest := hlength cursor more rest hmore
      exact ih (by omega) fun next hnext => hstep next (by omega)
    · nofun
    · rename_i hunfinished
      exact absurd hunfinished (hstep cursor (Nat.le_refl _))

theorem length_le_of_run {fuel : Nat} {mode : Mode} {pattern : Pattern} {cursor last : Cursor}
    {nodes : List Node} (h : declarations.run fuel mode pattern cursor = .matched nodes last) :
    last.rest.length ≤ cursor.rest.length :=
  Reads.length_le (reads_of_run gapNeverFails fuel h)

theorem length_lt_of_run {fuel : Nat} {mode : Mode} {pattern : Pattern} {cursor last : Cursor}
    {nodes : List Node} (h : declarations.run fuel mode pattern cursor = .matched nodes last)
    (hconsumes : pattern.consumes = true) : last.rest.length < cursor.rest.length := by
  have hreads : declarations.Reads mode pattern cursor (some (nodes, last)) :=
    reads_of_run gapNeverFails fuel h
  exact hreads.length_lt hconsumes

theorem length_le_of_runGap {fuel : Nat} {mode : Mode} {cursor next : Cursor}
    {nodes : List Node} (h : declarations.runGap fuel mode cursor = .matched nodes next) :
    next.rest.length ≤ cursor.rest.length := by
  unfold runGap at h
  split at h
  · exact length_le_of_run h
  · cases h
    exact Nat.le_refl _

theorem length_lt_of_runRound {fuel : Nat} {mode : Mode} {pattern : Pattern}
    {cursor last : Cursor} {nodes : List Node} (hconsumes : pattern.consumes = true)
    (h : declarations.runRound fuel mode pattern cursor = .matched nodes last) :
    last.rest.length < cursor.rest.length := by
  have hround : declarations.runRound fuel mode pattern cursor = .of (some (nodes, last)) := h
  rcases Outcome.of_andThen hround with ⟨-, hnone⟩ | ⟨_, next, _, hgap, hpattern, hfound⟩
  · cases hnone
  · obtain ⟨found, rfl, e⟩ := Option.map_eq_some_iff.mp hfound.symm
    cases e
    have hlast := length_lt_of_run hpattern hconsumes
    have hnext := length_le_of_runGap hgap
    omega

theorem Mode.gapRank_lt (mode : Mode) : mode.gapRank < 128 := by
  cases mode <;> decide

/-- Whether a number of steps suffices for every pattern and text that it is meant for. -/
def Suffices (fuel : Nat) : Prop :=
  ∀ {mode : Mode} {pattern : Pattern} {cursor : Cursor},
    pattern.isGuarded mode.gapRank = true → stepsBefore mode pattern cursor ≤ fuel →
      declarations.run fuel mode pattern cursor ≠ .unfinished

namespace Suffices

variable {fuel : Nat} {mode : Mode} {pattern first second : Pattern} {cursor : Cursor}
  (hsteps : Suffices fuel)

include hsteps

theorem gap (h : 128 * (cursor.rest.length + 1) + mode.gapRank ≤ fuel) :
    declarations.runGap fuel mode cursor ≠ .unfinished := by
  unfold runGap
  split
  · rename_i hspaced
    subst hspaced
    exact hsteps (by decide) h
  · exact Outcome.noConfusion

theorem round (hguarded : pattern.isGuarded mode.gapRank = true)
    (h : 128 * (cursor.rest.length + 1) + max mode.gapRank (pattern.rank mode.gapRank) ≤ fuel) :
    declarations.runRound fuel mode pattern cursor ≠ .unfinished := by
  refine andThen_ne_unfinished (hsteps.gap (by omega)) fun nodes next hnext => ?_
  have hlength := length_le_of_runGap hnext
  exact hsteps hguarded (by unfold stepsBefore; omega)

theorem call {rule : Rule} (h : stepsBefore mode (.call rule) cursor ≤ fuel + 1) :
    declarations.run (fuel + 1) mode (.call rule) cursor ≠ .unfinished := by
  have hrank := rank_ruleBody_le ((ruleKind rule).inside mode) rule
  have hbody : stepsBefore ((ruleKind rule).inside mode) (ruleBody rule) cursor ≤ fuel := by
    unfold stepsBefore at h ⊢
    rw [Pattern.rank] at h
    omega
  obtain ⟨found, hfound⟩ := Outcome.exists_eq_of
    (hsteps (isGuarded_ruleBody ((ruleKind rule).inside mode) rule) hbody)
  rw [run_call]
  show Outcome.called mode rule cursor
    (declarations.run fuel ((ruleKind rule).inside mode) (ruleBody rule) cursor) ≠ _
  rw [hfound]
  cases found <;> exact Outcome.noConfusion

theorem seq (hguarded : (Pattern.seq first second).isGuarded mode.gapRank = true)
    (h : stepsBefore mode (.seq first second) cursor ≤ fuel + 1) :
    declarations.run (fuel + 1) mode (.seq first second) cursor ≠ .unfinished := by
  simp only [Pattern.isGuarded, Bool.and_eq_true, decide_eq_true_eq] at hguarded
  obtain ⟨⟨hguardedFirst, hguardedSecond⟩, hrank⟩ := hguarded
  have hgapRank := mode.gapRank_lt
  unfold stepsBefore at h
  rw [Pattern.rank] at h
  rw [run_seq]
  refine andThen_ne_unfinished (hsteps hguardedFirst (by unfold stepsBefore; omega)) ?_
  intro nodes mid hmid
  refine hsteps.round hguardedSecond ?_
  -- either a character has been read, or the rank allows for what comes next
  split at h
  · rename_i hconsumes
    have := length_lt_of_run hmid hconsumes
    omega
  · have := length_le_of_run hmid
    omega

theorem alt (hguarded : (Pattern.alt first second).isGuarded mode.gapRank = true)
    (h : stepsBefore mode (.alt first second) cursor ≤ fuel + 1) :
    declarations.run (fuel + 1) mode (.alt first second) cursor ≠ .unfinished := by
  obtain ⟨hguardedFirst, hguardedSecond⟩ := Bool.and_eq_true_iff.mp hguarded
  unfold stepsBefore at h
  rw [Pattern.rank] at h
  have hfirst : declarations.run fuel mode first cursor ≠ .unfinished :=
    hsteps hguardedFirst (by unfold stepsBefore; omega)
  obtain ⟨found, hfound⟩ := Outcome.exists_eq_of hfirst
  rw [run_alt, hfound]
  cases found with
  | none => exact hsteps hguardedSecond (by unfold stepsBefore; omega)
  | some found => exact Outcome.of_ne_unfinished (some found)

/-- What an option, a repetition or a look ahead holds is found. -/
theorem inner (hguarded : pattern.isGuarded mode.gapRank = true)
    (h : 128 * (cursor.rest.length + 1) + (1 + pattern.rank mode.gapRank) ≤ fuel + 1) :
    ∃ found, declarations.run fuel mode pattern cursor = .of found :=
  Outcome.exists_eq_of (hsteps hguarded (by unfold stepsBefore; omega))

theorem opt (hguarded : pattern.isGuarded mode.gapRank = true)
    (h : stepsBefore mode (.opt pattern) cursor ≤ fuel + 1) :
    declarations.run (fuel + 1) mode (.opt pattern) cursor ≠ .unfinished := by
  obtain ⟨found, hfound⟩ := hsteps.inner hguarded h
  rw [run_opt, hfound, Outcome.orElse_of]
  exact Outcome.of_ne_unfinished _

theorem many (hguarded : (Pattern.many pattern).isGuarded mode.gapRank = true)
    (h : stepsBefore mode (.many pattern) cursor ≤ fuel + 1) :
    declarations.run (fuel + 1) mode (.many pattern) cursor ≠ .unfinished := by
  simp only [Pattern.isGuarded, Bool.and_eq_true, decide_eq_true_eq] at hguarded
  obtain ⟨⟨hconsumes, hguarded⟩, hrank⟩ := hguarded
  have hgapRank := mode.gapRank_lt
  obtain ⟨found, hfound⟩ := hsteps.inner hguarded h
  unfold stepsBefore at h
  rw [Pattern.rank] at h
  rw [run_many, hfound]
  match found with
  | none => exact Outcome.noConfusion
  | some (nodes, mid) =>
    have hlength := length_lt_of_run hfound hconsumes
    refine repeated_ne_unfinished fuel (fun _ _ _ => length_lt_of_runRound hconsumes)
      (by omega) fun next hnext => ?_
    exact hsteps.round hguarded (by omega)

theorem ahead (hguarded : pattern.isGuarded mode.gapRank = true)
    (h : stepsBefore mode (.ahead pattern) cursor ≤ fuel + 1) :
    declarations.run (fuel + 1) mode (.ahead pattern) cursor ≠ .unfinished := by
  obtain ⟨found, hfound⟩ := hsteps.inner hguarded h
  rw [run_ahead, hfound, Outcome.lookedAhead_of]
  exact Outcome.of_ne_unfinished _

theorem notAhead (hguarded : pattern.isGuarded mode.gapRank = true)
    (h : stepsBefore mode (.notAhead pattern) cursor ≤ fuel + 1) :
    declarations.run (fuel + 1) mode (.notAhead pattern) cursor ≠ .unfinished := by
  obtain ⟨found, hfound⟩ := hsteps.inner hguarded h
  rw [run_notAhead, hfound, Outcome.negated_of]
  exact Outcome.of_ne_unfinished _

end Suffices

/-- **So many steps suffice.** -/
theorem run_finishes (fuel : Nat) : ∀ {mode : Mode} {pattern : Pattern} {cursor : Cursor},
    pattern.isGuarded mode.gapRank = true → stepsBefore mode pattern cursor ≤ fuel →
      declarations.run fuel mode pattern cursor ≠ .unfinished := by
  induction fuel with
  | zero =>
    intro mode pattern cursor _ h
    unfold stepsBefore at h
    omega
  | succ fuel ih =>
    have hsteps : Suffices fuel := ih
    intro mode pattern cursor hguarded h
    cases pattern with
    | literal text => exact run_literal fuel mode cursor text ▸ Outcome.of_ne_unfinished _
    | satisfy accepts => exact run_satisfy fuel mode cursor accepts ▸ Outcome.of_ne_unfinished _
    | atStart => exact run_atStart fuel mode cursor ▸ Outcome.of_ne_unfinished _
    | atEnd => exact run_atEnd fuel mode cursor ▸ Outcome.of_ne_unfinished _
    | call rule => exact hsteps.call h
    | seq first second => exact hsteps.seq hguarded h
    | alt first second => exact hsteps.alt hguarded h
    | opt pattern => exact hsteps.opt hguarded h
    | many pattern => exact hsteps.many hguarded h
    | ahead pattern => exact hsteps.ahead hguarded h
    | notAhead pattern => exact hsteps.notAhead hguarded h

/-! ## 4. The parse of a text -/

theorem run_stepsFor_ne_unfinished (rule : Rule) (cursor : Cursor) :
    declarations.run (stepsFor cursor.rest.length) .spaced (.call rule) cursor ≠ .unfinished := by
  refine run_finishes _ rfl ?_
  have hrank : rule.rank + 1 ≤ 128 := by cases rule <;> decide
  show 128 * (cursor.rest.length + 1) + (rule.rank + 1) ≤ 128 * (cursor.rest.length + 2)
  omega

theorem run_stepsFor_eq {rule : Rule} {cursor : Cursor} {reading : Reading}
    (h : declarations.Reads .spaced (.call rule) cursor reading) :
    declarations.run (stepsFor cursor.rest.length) .spaced (.call rule) cursor = .of reading := by
  obtain ⟨fuel, hrun⟩ := exists_run_of_reads h
  have hmore := run_mono hrun (Nat.le_add_left fuel (stepsFor cursor.rest.length))
  rw [← hmore]
  exact (run_below (Nat.le_add_right _ _) _ _ _ (run_stepsFor_ne_unfinished rule cursor)).symm

/-- **The tree of a text is what its rule reads.** -/
theorem parse_eq_some_iff {rule : Rule} {text : String} {node : Node} :
    declarations.parse rule text = some node ↔
      ∃ last, declarations.Reads .spaced (.call rule) (Cursor.start text)
        (some ([node], last)) := by
  unfold parse
  dsimp only
  constructor
  · intro h
    split at h
    · rename_i node' last hrun
      cases h
      exact ⟨last, reads_of_run gapNeverFails _ hrun⟩
    · cases h
  · rintro ⟨last, h⟩
    rw [run_stepsFor_eq h]
    rfl

end GoStencil.Grammar
