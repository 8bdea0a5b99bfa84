import GoStencil.Proofs.Grammar.Reading

/-!
# Runs and readings

What patterns read agrees with `Grammar.run`, which counts steps.

* `run_literal` and so on: one level of a run, for each form of pattern.
* `reads_of_run`: what a run finds is so, whatever its number of steps. `FindsReadings` has one
  lemma for each form of pattern.
* `exists_run_of_reads`, `run_mono`: what is so is found by all runs with enough steps. `IsFound`
  has one lemma for each step of a reading.
* `Reads.unique`: so a pattern reads in one way only.
-/

namespace GoStencil.Grammar

variable {grammar : Grammar}

/-- The outcome that says the same as a reading. -/
def Outcome.of : Reading → Outcome
  | some (nodes, last) => .matched nodes last
  | none => .failed

/-! ## 1. One level of a run -/

namespace Outcome

/-- The outcome of a call, given that of the body of its rule. -/
def called (mode : Mode) (rule : Rule) (cursor : Cursor) : Outcome → Outcome
  | .matched nodes last =>
    .matched (if mode = .token then [] else [⟨rule, cursor, last, nodes⟩]) last
  | other => other

/-- The outcome of a choice: the second is tried where the first fails. -/
def orElse (first second : Outcome) : Outcome :=
  match first with
  | .failed => second
  | other => other

/-- The outcome of looking ahead, which stays where it is. -/
def lookedAhead (cursor : Cursor) : Outcome → Outcome
  | .matched _ _ => .matched [] cursor
  | other => other

/-- The outcome of looking ahead for something that must not follow. -/
def negated (cursor : Cursor) : Outcome → Outcome
  | .matched _ _ => .failed
  | .failed => .matched [] cursor
  | .unfinished => .unfinished

/-- The outcome of a repetition, given that of its first round. -/
def goneOn (round : Cursor → Outcome) (rounds : Nat) (cursor : Cursor) : Outcome → Outcome
  | .matched nodes mid => repeated round rounds nodes.reverse mid
  | .failed => .matched [] cursor
  | .unfinished => .unfinished

end Outcome

/-- What a run does between two patterns. -/
def runGap (grammar : Grammar) (fuel : Nat) (mode : Mode) (cursor : Cursor) : Outcome :=
  if mode = .spaced then grammar.run fuel .token grammar.gap cursor else .matched [] cursor

/-- What a run does in a round of a repetition but the first. -/
def runRound (grammar : Grammar) (fuel : Nat) (mode : Mode) (pattern : Pattern)
    (cursor : Cursor) : Outcome :=
  (grammar.runGap fuel mode cursor).andThen fun next => grammar.run fuel mode pattern next

section Forms

variable (fuel : Nat) (mode : Mode) (cursor : Cursor)

theorem run_literal (text : List Char) : grammar.run (fuel + 1) mode (.literal text) cursor =
    .of ((cursor.skip? text).map ([], ·)) := by
  rw [run]
  cases cursor.skip? text <;> rfl

theorem run_satisfy (accepts : Char → Bool) :
    grammar.run (fuel + 1) mode (.satisfy accepts) cursor =
      .of ((cursor.next? accepts).map ([], ·)) := by
  rw [run]
  cases cursor.next? accepts <;> rfl

theorem run_atStart : grammar.run (fuel + 1) mode .atStart cursor =
    .of (if cursor.offset = 0 then some ([], cursor) else none) := by
  rw [run]
  split <;> rfl

theorem run_atEnd : grammar.run (fuel + 1) mode .atEnd cursor =
    .of (if cursor.rest.isEmpty then some ([], cursor) else none) := by
  rw [run]
  split <;> rfl

theorem run_call (rule : Rule) : grammar.run (fuel + 1) mode (.call rule) cursor =
    (grammar.run fuel ((grammar.kind rule).inside mode) (grammar.body rule) cursor).called
      mode rule cursor := rfl

theorem run_seq (first second : Pattern) :
    grammar.run (fuel + 1) mode (.seq first second) cursor =
      (grammar.run fuel mode first cursor).andThen (grammar.runRound fuel mode second) := rfl

theorem run_alt (first second : Pattern) :
    grammar.run (fuel + 1) mode (.alt first second) cursor =
      (grammar.run fuel mode first cursor).orElse (grammar.run fuel mode second cursor) := rfl

theorem run_opt (pattern : Pattern) : grammar.run (fuel + 1) mode (.opt pattern) cursor =
    (grammar.run fuel mode pattern cursor).orElse (.matched [] cursor) := rfl

theorem run_many (pattern : Pattern) : grammar.run (fuel + 1) mode (.many pattern) cursor =
    (grammar.run fuel mode pattern cursor).goneOn (grammar.runRound fuel mode pattern) fuel
      cursor := rfl

theorem run_ahead (pattern : Pattern) : grammar.run (fuel + 1) mode (.ahead pattern) cursor =
    (grammar.run fuel mode pattern cursor).lookedAhead cursor := rfl

theorem run_notAhead (pattern : Pattern) :
    grammar.run (fuel + 1) mode (.notAhead pattern) cursor =
      (grammar.run fuel mode pattern cursor).negated cursor := rfl

end Forms

namespace Outcome

theorem of_injective {left right : Reading} (h : of left = of right) : left = right := by
  match left, right with
  | none, none => rfl
  | some (_, _), some (_, _) =>
    cases h
    rfl
  | none, some _ => cases h
  | some _, none => cases h

theorem of_ne_unfinished (reading : Reading) : of reading ≠ .unfinished := by
  cases reading <;> nofun

theorem exists_eq_of {outcome : Outcome} (h : outcome ≠ .unfinished) :
    ∃ reading, outcome = of reading := by
  cases outcome with
  | matched nodes last => exact ⟨some (nodes, last), rfl⟩
  | failed => exact ⟨none, rfl⟩
  | unfinished => exact absurd rfl h

/-- Where the outcome of the parts is needed, it is a reading. -/
theorem exists_of_eq {f : Outcome → Outcome} (hf : f .unfinished = .unfinished)
    {outcome : Outcome} {reading : Reading} (h : f outcome = of reading) :
    ∃ found, outcome = of found ∧ f (of found) = of reading := by
  have hne : outcome ≠ .unfinished := by
    rintro rfl
    exact of_ne_unfinished reading (h.symm.trans hf)
  obtain ⟨found, rfl⟩ := exists_eq_of hne
  exact ⟨found, rfl, h⟩

theorem orElse_of (reading : Reading) (cursor : Cursor) :
    (of reading).orElse (.matched [] cursor) = of (some (reading.getD ([], cursor))) := by
  cases reading <;> rfl

theorem lookedAhead_of (reading : Reading) (cursor : Cursor) :
    (of reading).lookedAhead cursor = of (reading.map fun _ => ([], cursor)) := by
  cases reading <;> rfl

theorem negated_of (reading : Reading) (cursor : Cursor) :
    (of reading).negated cursor = of (if reading.isSome then none else some ([], cursor)) := by
  cases reading <;> rfl

theorem andThen_of {next : Cursor → Outcome} {nodes : List Node} {mid : Cursor}
    {reading : Reading} (h : next mid = of reading) :
    (matched nodes mid).andThen next =
      of (reading.map fun found => (nodes ++ found.1, found.2)) := by
  unfold andThen
  dsimp only
  rw [h]
  cases reading <;> rfl

/-- A sequence fails with its first part, or it is read after that. -/
theorem of_andThen {first : Outcome} {next : Cursor → Outcome} {reading : Reading}
    (h : first.andThen next = of reading) :
    first = .failed ∧ reading = none ∨ ∃ nodes mid found, first = .matched nodes mid ∧
      next mid = of found ∧ reading = found.map fun found => (nodes ++ found.1, found.2) := by
  obtain ⟨before, rfl, h⟩ := exists_of_eq (f := (·.andThen next)) rfl h
  match before with
  | none =>
    have hreading : none = reading := of_injective h
    exact .inl ⟨rfl, hreading.symm⟩
  | some (nodes, mid) =>
    have hnext : next mid ≠ .unfinished := by
      intro hunfinished
      refine of_ne_unfinished reading (h.symm.trans ?_)
      show (matched nodes mid).andThen next = .unfinished
      unfold andThen
      dsimp only
      rw [hunfinished]
    obtain ⟨found, hfound⟩ := exists_eq_of hnext
    exact .inr ⟨nodes, mid, found, rfl, hfound, of_injective (h.symm.trans (andThen_of hfound))⟩

theorem repeated_ne_failed {step : Cursor → Outcome} (rounds : Nat) :
    ∀ {nodes : List Node} {cursor : Cursor}, repeated step rounds nodes cursor ≠ .failed := by
  induction rounds with
  | zero => nofun
  | succ rounds ih =>
    intro nodes cursor
    unfold repeated
    split
    · exact ih
    · nofun
    · nofun

end Outcome

/-! ## 2. Runs are readings -/

/-- Whether gaps may always be left out. -/
def GapNeverFails (grammar : Grammar) : Prop :=
  ∀ fuel cursor, grammar.run fuel .token grammar.gap cursor ≠ .failed

theorem runGap_ne_failed (hgap : grammar.GapNeverFails) (fuel : Nat) (mode : Mode)
    (cursor : Cursor) : grammar.runGap fuel mode cursor ≠ .failed := by
  unfold runGap
  split
  · exact hgap fuel cursor
  · nofun

/-- Whether what the runs with a number of steps find is so. -/
def FindsReadings (grammar : Grammar) (fuel : Nat) : Prop :=
  ∀ {mode : Mode} {pattern : Pattern} {cursor : Cursor} {reading : Reading},
    grammar.run fuel mode pattern cursor = .of reading →
      grammar.Reads mode pattern cursor reading

namespace FindsReadings

variable {fuel : Nat} {mode : Mode} {rule : Rule} {pattern first second : Pattern}
  {cursor : Cursor} {reading : Reading} (hruns : grammar.FindsReadings fuel)

include hruns

theorem gap {next : Cursor} {nodes : List Node}
    (h : grammar.runGap fuel mode cursor = .matched nodes next) :
    nodes = [] ∧ grammar.Reads .token (grammar.gapIn mode) cursor (some ([], next)) := by
  cases mode with
  | spaced =>
    have hreads : grammar.Reads .token grammar.gap cursor (some (nodes, next)) := hruns h
    have hnodes : nodes = [] := hreads.nodes_eq_nil_of_token
    subst hnodes
    exact ⟨rfl, hreads⟩
  | tight | token =>
    cases h
    exact ⟨rfl, .literal .token [] cursor⟩

theorem round (hgap : grammar.GapNeverFails)
    (h : grammar.runRound fuel mode pattern cursor = .of reading) :
    ∃ next, grammar.Reads .token (grammar.gapIn mode) cursor (some ([], next)) ∧
      grammar.Reads mode pattern next reading := by
  rcases Outcome.of_andThen h with ⟨hfails, -⟩ | ⟨nodes, next, found, hspace, hnext, hreading⟩
  · exact absurd hfails (runGap_ne_failed hgap fuel mode cursor)
  · obtain ⟨rfl, hreads⟩ := hruns.gap hspace
    have hfound : reading = found := by
      rw [hreading]
      exact Option.map_id'
    exact ⟨next, hreads, hfound ▸ hruns hnext⟩

theorem call (h : grammar.run (fuel + 1) mode (.call rule) cursor = .of reading) :
    grammar.Reads mode (.call rule) cursor reading := by
  obtain ⟨found, hbody, h⟩ := Outcome.exists_of_eq (f := .called mode rule cursor) rfl h
  match found with
  | none =>
    have hreading : none = reading := Outcome.of_injective h
    subst hreading
    exact .callFails (hruns hbody)
  | some (nodes, last) =>
    have hreading :
        some (if mode = .token then [] else [⟨rule, cursor, last, nodes⟩], last) = reading :=
      Outcome.of_injective h
    subst hreading
    exact .call (hruns hbody)

theorem seq (hgap : grammar.GapNeverFails)
    (h : grammar.run (fuel + 1) mode (.seq first second) cursor = .of reading) :
    grammar.Reads mode (.seq first second) cursor reading := by
  rcases Outcome.of_andThen h with ⟨hfails, rfl⟩ | ⟨nodes, mid, found, hfirst, hround, rfl⟩
  · exact .seqFails (hruns hfails)
  · obtain ⟨next, hspace, hsecond⟩ := hruns.round hgap hround
    have hreads : grammar.Reads mode first cursor (some (nodes, mid)) := hruns hfirst
    exact .seq hreads hspace hsecond

theorem alt (h : grammar.run (fuel + 1) mode (.alt first second) cursor = .of reading) :
    grammar.Reads mode (.alt first second) cursor reading := by
  obtain ⟨found, hfirst, h⟩ :=
    Outcome.exists_of_eq (f := (·.orElse (grammar.run fuel mode second cursor))) rfl h
  match found with
  | none => exact .altSecond (hruns hfirst) (hruns h)
  | some found =>
    have hreading : some found = reading := Outcome.of_injective h
    subst hreading
    exact .altFirst (hruns hfirst)

theorem opt (h : grammar.run (fuel + 1) mode (.opt pattern) cursor = .of reading) :
    grammar.Reads mode (.opt pattern) cursor reading := by
  obtain ⟨found, hpattern, h⟩ :=
    Outcome.exists_of_eq (f := (·.orElse (.matched [] cursor))) rfl h
  rw [← Outcome.of_injective ((Outcome.orElse_of found cursor).symm.trans h)]
  exact .opt (hruns hpattern)

/-- The rounds after a first one. -/
theorem repeated (hgap : grammar.GapNeverFails) {last : Cursor} (rounds : Nat) :
    ∀ {before nodes : List Node} {mid : Cursor},
    Outcome.repeated (grammar.runRound fuel mode pattern) rounds before mid =
      .matched nodes last →
    ∃ more, nodes = before.reverse ++ more ∧
      ∀ {cursor first}, grammar.Reads mode pattern cursor (some (first, mid)) →
        grammar.Reads mode (.many pattern) cursor (some (first ++ more, last)) := by
  induction rounds with
  | zero => nofun
  | succ rounds ihRounds =>
    intro before nodes mid h
    unfold Outcome.repeated at h
    split at h
    · rename_i found rest hround
      obtain ⟨next, hspace, hfound⟩ : ∃ next, _ ∧
          grammar.Reads mode pattern next (some (found, rest)) := hruns.round hgap hround
      obtain ⟨more, hnodes, hmany⟩ := ihRounds h
      refine ⟨found ++ more, ?_, fun hfirst => .manyMore hfirst hspace hfound (hmany hfound)⟩
      rw [hnodes, List.reverse_append, List.reverse_reverse, List.append_assoc]
    · rename_i hround
      obtain ⟨next, hspace, hnone⟩ : ∃ next, _ ∧
          grammar.Reads mode pattern next none := hruns.round hgap hround
      cases h
      refine ⟨[], (List.append_nil _).symm, fun {cursor first} hfirst => ?_⟩
      rw [List.append_nil]
      exact .manyLast hfirst hspace hnone
    · cases h

theorem many (hgap : grammar.GapNeverFails)
    (h : grammar.run (fuel + 1) mode (.many pattern) cursor = .of reading) :
    grammar.Reads mode (.many pattern) cursor reading := by
  obtain ⟨found, hpattern, h⟩ := Outcome.exists_of_eq
    (f := .goneOn (grammar.runRound fuel mode pattern) fuel cursor) rfl h
  match found, reading with
  | none, reading =>
    have hreading : some ([], cursor) = reading := Outcome.of_injective h
    subst hreading
    exact .manyNone (hruns hpattern)
  | some (first, mid), none => exact absurd h (Outcome.repeated_ne_failed fuel)
  | some (first, mid), some (nodes, last) =>
    obtain ⟨more, hnodes, hmany⟩ := hruns.repeated hgap fuel h
    rw [hnodes, List.reverse_reverse]
    exact hmany (hruns hpattern)

theorem ahead (h : grammar.run (fuel + 1) mode (.ahead pattern) cursor = .of reading) :
    grammar.Reads mode (.ahead pattern) cursor reading := by
  obtain ⟨found, hpattern, h⟩ := Outcome.exists_of_eq (f := .lookedAhead cursor) rfl h
  rw [← Outcome.of_injective ((Outcome.lookedAhead_of found cursor).symm.trans h)]
  exact .ahead (hruns hpattern)

theorem notAhead (h : grammar.run (fuel + 1) mode (.notAhead pattern) cursor = .of reading) :
    grammar.Reads mode (.notAhead pattern) cursor reading := by
  obtain ⟨found, hpattern, h⟩ := Outcome.exists_of_eq (f := .negated cursor) rfl h
  rw [← Outcome.of_injective ((Outcome.negated_of found cursor).symm.trans h)]
  exact .notAhead (hruns hpattern)

end FindsReadings

/-- **What a run finds is so.** -/
theorem reads_of_run (hgap : grammar.GapNeverFails) (fuel : Nat) :
    ∀ {mode : Mode} {pattern : Pattern} {cursor : Cursor} {reading : Reading},
    grammar.run fuel mode pattern cursor = .of reading →
      grammar.Reads mode pattern cursor reading := by
  induction fuel with
  | zero =>
    intro mode pattern cursor reading h
    exact absurd h.symm (Outcome.of_ne_unfinished reading)
  | succ fuel ih =>
    have hruns : grammar.FindsReadings fuel := ih
    intro mode pattern cursor reading h
    cases pattern with
    | literal text =>
      rw [← Outcome.of_injective ((run_literal fuel mode cursor text).symm.trans h)]
      exact .literal mode text cursor
    | satisfy accepts =>
      rw [← Outcome.of_injective ((run_satisfy fuel mode cursor accepts).symm.trans h)]
      exact .satisfy mode accepts cursor
    | atStart =>
      rw [← Outcome.of_injective ((run_atStart fuel mode cursor).symm.trans h)]
      exact .atStart mode cursor
    | atEnd =>
      rw [← Outcome.of_injective ((run_atEnd fuel mode cursor).symm.trans h)]
      exact .atEnd mode cursor
    | call rule => exact hruns.call h
    | seq first second => exact hruns.seq hgap h
    | alt first second => exact hruns.alt h
    | opt pattern => exact hruns.opt h
    | many pattern => exact hruns.many hgap h
    | ahead pattern => exact hruns.ahead h
    | notAhead pattern => exact hruns.notAhead h

/-! ## 3. Readings are runs -/

namespace Outcome

/-- Whether more steps have led to the same outcome, unless fewer did not suffice. -/
def Below (less more : Outcome) : Prop :=
  less ≠ .unfinished → more = less

theorem below_refl (outcome : Outcome) : outcome.Below outcome :=
  fun _ => rfl

theorem Below.trans {first second third : Outcome} (h : first.Below second)
    (h' : second.Below third) : first.Below third := by
  intro hne
  have hsecond := h hne
  rw [h' (hsecond ▸ hne), hsecond]

/-- What is made of an outcome that is needed. -/
theorem Below.map {less more : Outcome} {f g : Outcome → Outcome} (h : less.Below more)
    (hf : f .unfinished = .unfinished) (hfg : ∀ outcome, (f outcome).Below (g outcome)) :
    (f less).Below (g more) := by
  intro hne
  have hless : less ≠ .unfinished := by
    rintro rfl
    exact hne hf
  rw [h hless]
  exact hfg less hne

theorem Below.eq_of {less more : Outcome} {reading : Reading} (h : less.Below more)
    (hless : less = of reading) : more = of reading := by
  subst hless
  exact h (of_ne_unfinished reading)

theorem Below.andThen {first first' : Outcome} {next next' : Cursor → Outcome}
    (hfirst : first.Below first') (hnext : ∀ cursor, (next cursor).Below (next' cursor)) :
    (first.andThen next).Below (first'.andThen next') := by
  refine hfirst.map (f := (·.andThen next)) (g := (·.andThen next')) rfl fun outcome => ?_
  cases outcome with
  | failed | unfinished => exact below_refl _
  | matched nodes mid =>
    intro hne
    have hmid : next mid ≠ .unfinished := by
      intro hunfinished
      unfold Outcome.andThen at hne
      dsimp only at hne
      rw [hunfinished] at hne
      exact hne rfl
    unfold Outcome.andThen
    dsimp only
    rw [hnext mid hmid]

theorem Below.orElse {first first' second second' : Outcome} (hfirst : first.Below first')
    (hsecond : second.Below second') : (first.orElse second).Below (first'.orElse second') := by
  refine hfirst.map (f := (·.orElse second)) (g := (·.orElse second')) rfl fun outcome => ?_
  cases outcome with
  | failed => exact hsecond
  | matched | unfinished => exact below_refl _

theorem below_repeated {step step' : Cursor → Outcome}
    (hstep : ∀ cursor, (step cursor).Below (step' cursor)) {rounds rounds' : Nat}
    (hle : rounds ≤ rounds') (nodes : List Node) (cursor : Cursor) :
    (repeated step rounds nodes cursor).Below (repeated step' rounds' nodes cursor) := by
  induction rounds generalizing rounds' nodes cursor with
  | zero => exact fun hne => absurd rfl hne
  | succ rounds ih =>
    obtain ⟨rounds', rfl⟩ : ∃ r, rounds' = r + 1 := ⟨rounds' - 1, by omega⟩
    intro hne
    unfold repeated at hne ⊢
    cases hcursor : step cursor with
    | unfinished =>
      rw [hcursor] at hne
      exact absurd rfl hne
    | failed =>
      have hmore := hstep cursor (by rw [hcursor]; nofun)
      rw [hmore, hcursor]
    | matched more rest =>
      have hmore := hstep cursor (by rw [hcursor]; nofun)
      rw [hmore, hcursor]
      rw [hcursor] at hne
      exact ih (by omega) _ _ hne

theorem Below.goneOn {first first' : Outcome} {round round' : Cursor → Outcome}
    (hfirst : first.Below first') (hround : ∀ cursor, (round cursor).Below (round' cursor))
    {rounds rounds' : Nat} (hle : rounds ≤ rounds') (cursor : Cursor) :
    (first.goneOn round rounds cursor).Below (first'.goneOn round' rounds' cursor) := by
  refine hfirst.map (f := .goneOn round rounds cursor) (g := .goneOn round' rounds' cursor) rfl
    fun outcome => ?_
  cases outcome with
  | matched nodes mid => exact below_repeated hround hle nodes.reverse mid
  | failed | unfinished => exact below_refl _

/-- The nodes of earlier rounds only stand before the others. -/
theorem repeated_append {step : Cursor → Outcome} (before : List Node) {last : Cursor}
    (rounds : Nat) : ∀ {first nodes : List Node} {cursor : Cursor},
    repeated step rounds first cursor = .matched nodes last →
      repeated step rounds (first ++ before) cursor = .matched (before.reverse ++ nodes) last := by
  induction rounds with
  | zero => nofun
  | succ rounds ih =>
    intro first nodes cursor h
    unfold repeated at h ⊢
    cases hcursor : step cursor with
    | unfinished =>
      rw [hcursor] at h
      cases h
    | failed =>
      rw [hcursor] at h
      cases h
      rw [List.reverse_append]
    | matched more rest =>
      rw [hcursor] at h
      have hrest := ih h
      rwa [List.append_assoc] at hrest

end Outcome

theorem run_below_succ (fuel : Nat) : ∀ (mode : Mode) (pattern : Pattern) (cursor : Cursor),
    (grammar.run fuel mode pattern cursor).Below (grammar.run (fuel + 1) mode pattern cursor) := by
  induction fuel with
  | zero => exact fun _ _ _ hne => absurd rfl hne
  | succ fuel ih =>
    have hround : ∀ mode pattern cursor, (grammar.runRound fuel mode pattern cursor).Below
        (grammar.runRound (fuel + 1) mode pattern cursor) := by
      intro mode pattern cursor
      refine Outcome.Below.andThen ?_ fun next => ih mode pattern next
      unfold runGap
      split
      · exact ih _ _ _
      · exact Outcome.below_refl _
    intro mode pattern cursor
    cases pattern with
    | literal | satisfy | atStart | atEnd => exact Outcome.below_refl _
    | call rule =>
      exact (ih ((grammar.kind rule).inside mode) (grammar.body rule) cursor).map
        (f := .called mode rule cursor) rfl fun _ => Outcome.below_refl _
    | seq first second => exact (ih mode first cursor).andThen (hround mode second)
    | alt first second => exact (ih mode first cursor).orElse (ih mode second cursor)
    | opt pattern => exact (ih mode pattern cursor).orElse (Outcome.below_refl _)
    | many pattern =>
      exact (ih mode pattern cursor).goneOn (hround mode pattern) (Nat.le_succ fuel) cursor
    | ahead pattern =>
      exact (ih mode pattern cursor).map (f := .lookedAhead cursor) rfl fun _ =>
        Outcome.below_refl _
    | notAhead pattern =>
      exact (ih mode pattern cursor).map (f := .negated cursor) rfl fun _ =>
        Outcome.below_refl _

section Below

variable {fuel more : Nat} (hle : fuel ≤ more)

include hle

theorem run_below (mode : Mode) (pattern : Pattern) (cursor : Cursor) :
    (grammar.run fuel mode pattern cursor).Below (grammar.run more mode pattern cursor) := by
  induction hle with
  | refl => exact Outcome.below_refl _
  | step _ ih => exact ih.trans (run_below_succ _ mode pattern cursor)

theorem runRound_below (mode : Mode) (pattern : Pattern) (cursor : Cursor) :
    (grammar.runRound fuel mode pattern cursor).Below
      (grammar.runRound more mode pattern cursor) := by
  refine Outcome.Below.andThen ?_ fun next => run_below hle mode pattern next
  unfold runGap
  split
  · exact run_below hle .token grammar.gap cursor
  · exact Outcome.below_refl _

end Below

/-- What a run finds, every run with more steps finds. -/
theorem run_mono {fuel more : Nat} {mode : Mode} {pattern : Pattern} {cursor : Cursor}
    {reading : Reading} (h : grammar.run fuel mode pattern cursor = .of reading)
    (hle : fuel ≤ more) : grammar.run more mode pattern cursor = .of reading :=
  (run_below hle mode pattern cursor).eq_of h

/-- Whether a run with enough steps finds a reading. -/
def IsFound (grammar : Grammar) (mode : Mode) (pattern : Pattern) (cursor : Cursor)
    (reading : Reading) : Prop :=
  ∃ fuel, grammar.run fuel mode pattern cursor = .of reading

namespace IsFound

variable {mode : Mode} {rule : Rule} {pattern first second : Pattern}
  {cursor mid next last : Cursor} {nodes more : List Node} {reading : Reading}

theorem runGap {fuel : Nat}
    (h : grammar.run fuel .token (grammar.gapIn mode) mid = .of (some ([], next))) :
    grammar.runGap fuel mode mid = .matched [] next := by
  cases mode with
  | spaced => exact h
  | tight | token =>
    cases fuel with
    | zero => cases h
    | succ fuel => exact h

/-- A round finds what its pattern finds behind the gap. -/
theorem round (hgap : grammar.IsFound .token (grammar.gapIn mode) mid (some ([], next)))
    (h : grammar.IsFound mode pattern next reading) :
    ∃ fuel, grammar.runRound fuel mode pattern mid = .of reading := by
  obtain ⟨fuel, hgap⟩ := hgap
  obtain ⟨fuel', h⟩ := h
  refine ⟨max fuel fuel', ?_⟩
  unfold runRound
  rw [runGap (run_mono hgap (Nat.le_max_left fuel fuel')),
    Outcome.andThen_of (run_mono h (Nat.le_max_right fuel fuel'))]
  exact congrArg Outcome.of Option.map_id'

theorem call (h : grammar.IsFound ((grammar.kind rule).inside mode) (grammar.body rule) cursor
    (some (nodes, last))) : grammar.IsFound mode (.call rule) cursor
      (some (if mode = .token then [] else [⟨rule, cursor, last, nodes⟩], last)) := by
  obtain ⟨fuel, hbody⟩ := h
  refine ⟨fuel + 1, ?_⟩
  rw [run_call, hbody]
  rfl

theorem callFails (h : grammar.IsFound ((grammar.kind rule).inside mode) (grammar.body rule) cursor
    none) : grammar.IsFound mode (.call rule) cursor none := by
  obtain ⟨fuel, hbody⟩ := h
  refine ⟨fuel + 1, ?_⟩
  rw [run_call, hbody]
  rfl

theorem seq (hfirst : grammar.IsFound mode first cursor (some (nodes, mid)))
    (hgap : grammar.IsFound .token (grammar.gapIn mode) mid (some ([], next)))
    (hsecond : grammar.IsFound mode second next reading) :
    grammar.IsFound mode (.seq first second) cursor
      (reading.map fun found => (nodes ++ found.1, found.2)) := by
  obtain ⟨fuel, hfirst⟩ := hfirst
  obtain ⟨fuel', hround⟩ := hgap.round hsecond
  refine ⟨max fuel fuel' + 1, ?_⟩
  rw [run_seq, run_mono hfirst (Nat.le_max_left fuel fuel')]
  exact Outcome.andThen_of
    ((runRound_below (Nat.le_max_right fuel fuel') mode second mid).eq_of hround)

theorem seqFails (h : grammar.IsFound mode first cursor none) :
    grammar.IsFound mode (.seq first second) cursor none := by
  obtain ⟨fuel, hfirst⟩ := h
  refine ⟨fuel + 1, ?_⟩
  rw [run_seq, hfirst]
  rfl

theorem altFirst {found : List Node × Cursor}
    (h : grammar.IsFound mode first cursor (some found)) :
    grammar.IsFound mode (.alt first second) cursor (some found) := by
  obtain ⟨fuel, hfirst⟩ := h
  refine ⟨fuel + 1, ?_⟩
  rw [run_alt, hfirst]
  rfl

theorem altSecond (hfirst : grammar.IsFound mode first cursor none)
    (hsecond : grammar.IsFound mode second cursor reading) :
    grammar.IsFound mode (.alt first second) cursor reading := by
  obtain ⟨fuel, hfirst⟩ := hfirst
  obtain ⟨fuel', hsecond⟩ := hsecond
  refine ⟨max fuel fuel' + 1, ?_⟩
  rw [run_alt, run_mono hfirst (Nat.le_max_left fuel fuel')]
  exact run_mono hsecond (Nat.le_max_right fuel fuel')

theorem opt (h : grammar.IsFound mode pattern cursor reading) :
    grammar.IsFound mode (.opt pattern) cursor (some (reading.getD ([], cursor))) := by
  obtain ⟨fuel, hpattern⟩ := h
  exact ⟨fuel + 1, by rw [run_opt, hpattern, Outcome.orElse_of]⟩

theorem manyNone (h : grammar.IsFound mode pattern cursor none) :
    grammar.IsFound mode (.many pattern) cursor (some ([], cursor)) := by
  obtain ⟨fuel, hpattern⟩ := h
  refine ⟨fuel + 1, ?_⟩
  rw [run_many, hpattern]
  rfl

theorem manyLast (hfirst : grammar.IsFound mode pattern cursor (some (nodes, mid)))
    (hgap : grammar.IsFound .token (grammar.gapIn mode) mid (some ([], next)))
    (hnext : grammar.IsFound mode pattern next none) :
    grammar.IsFound mode (.many pattern) cursor (some (nodes, mid)) := by
  obtain ⟨fuel₁, hfirst⟩ := hfirst
  obtain ⟨fuel₂, hround⟩ := hgap.round hnext
  let fuel := max fuel₁ fuel₂ + 1
  have hround : grammar.runRound fuel mode pattern mid = .failed :=
    (runRound_below (by omega : fuel₂ ≤ fuel) mode pattern mid).eq_of hround
  refine ⟨fuel + 1, ?_⟩
  rw [run_many, run_mono hfirst (by omega : fuel₁ ≤ fuel)]
  show Outcome.repeated _ (_ + 1) _ _ = _
  rw [Outcome.repeated, hround]
  exact congrArg (Outcome.matched · mid) (List.reverse_reverse nodes)

/-- The rounds behind the first are those of a repetition from there on. -/
theorem repeated {found : List Node × Cursor}
    (hnext : grammar.IsFound mode pattern next (some found))
    (hrest : grammar.IsFound mode (.many pattern) next (some (more, last))) :
    ∃ fuel, Outcome.repeated (grammar.runRound fuel mode pattern) fuel found.1.reverse found.2 =
      .matched more last := by
  obtain ⟨fuel, hnext⟩ := hnext
  obtain ⟨fuel', hrest⟩ := hrest
  have hmany := run_mono hrest (by omega : fuel' ≤ max fuel fuel' + 1)
  rw [run_many, run_mono hnext (Nat.le_max_left fuel fuel')] at hmany
  exact ⟨max fuel fuel', hmany⟩

theorem manyMore {found : List Node × Cursor}
    (hfirst : grammar.IsFound mode pattern cursor (some (nodes, mid)))
    (hgap : grammar.IsFound .token (grammar.gapIn mode) mid (some ([], next)))
    (hnext : grammar.IsFound mode pattern next (some found))
    (hrest : grammar.IsFound mode (.many pattern) next (some (more, last))) :
    grammar.IsFound mode (.many pattern) cursor (some (nodes ++ more, last)) := by
  obtain ⟨fuel₁, hfirst⟩ := hfirst
  obtain ⟨fuel₂, hround⟩ := hgap.round hnext
  obtain ⟨fuel₃, hlater⟩ := hnext.repeated hrest
  -- the later rounds are one less than all
  let rounds := max fuel₁ (max fuel₂ fuel₃)
  have hround : grammar.runRound (rounds + 1) mode pattern mid = .of (some found) :=
    (runRound_below (by omega : fuel₂ ≤ rounds + 1) mode pattern mid).eq_of hround
  have hlater : Outcome.repeated (grammar.runRound (rounds + 1) mode pattern) rounds
      found.1.reverse found.2 = .of (some (more, last)) :=
    (Outcome.below_repeated (runRound_below (by omega : fuel₃ ≤ rounds + 1) mode pattern)
      (by omega : fuel₃ ≤ rounds) _ _).eq_of hlater
  refine ⟨rounds + 1 + 1, ?_⟩
  rw [run_many, run_mono hfirst (by omega : fuel₁ ≤ rounds + 1)]
  show Outcome.repeated _ (_ + 1) _ _ = _
  rw [Outcome.repeated, hround]
  have happend := Outcome.repeated_append nodes.reverse rounds hlater
  rwa [List.reverse_reverse] at happend

theorem ahead (h : grammar.IsFound mode pattern cursor reading) :
    grammar.IsFound mode (.ahead pattern) cursor (reading.map fun _ => ([], cursor)) := by
  obtain ⟨fuel, hpattern⟩ := h
  exact ⟨fuel + 1, by rw [run_ahead, hpattern, Outcome.lookedAhead_of]⟩

theorem notAhead (h : grammar.IsFound mode pattern cursor reading) :
    grammar.IsFound mode (.notAhead pattern) cursor
      (if reading.isSome then none else some ([], cursor)) := by
  obtain ⟨fuel, hpattern⟩ := h
  exact ⟨fuel + 1, by rw [run_notAhead, hpattern, Outcome.negated_of]⟩

end IsFound

/-- **What is so is found by a run with enough steps.** -/
theorem exists_run_of_reads {mode : Mode} {pattern : Pattern} {cursor : Cursor}
    {reading : Reading} (h : grammar.Reads mode pattern cursor reading) :
    ∃ fuel, grammar.run fuel mode pattern cursor = .of reading := by
  induction h with
  | literal mode text cursor => exact ⟨1, run_literal 0 mode cursor text⟩
  | satisfy mode accepts cursor => exact ⟨1, run_satisfy 0 mode cursor accepts⟩
  | atStart mode cursor => exact ⟨1, run_atStart 0 mode cursor⟩
  | atEnd mode cursor => exact ⟨1, run_atEnd 0 mode cursor⟩
  | call _ ih => exact IsFound.call ih
  | callFails _ ih => exact IsFound.callFails ih
  | seq _ _ _ ihFirst ihGap ihSecond => exact IsFound.seq ihFirst ihGap ihSecond
  | seqFails _ ih => exact IsFound.seqFails ih
  | altFirst _ ih => exact IsFound.altFirst ih
  | altSecond _ _ ihFirst ihSecond => exact IsFound.altSecond ihFirst ihSecond
  | opt _ ih => exact IsFound.opt ih
  | manyNone _ ih => exact IsFound.manyNone ih
  | manyLast _ _ _ ihFirst ihGap ihNext => exact IsFound.manyLast ihFirst ihGap ihNext
  | manyMore _ _ _ _ ihFirst ihGap ihNext ihRest =>
    exact IsFound.manyMore ihFirst ihGap ihNext ihRest
  | ahead _ ih => exact IsFound.ahead ih
  | notAhead _ ih => exact IsFound.notAhead ih

/-- **A pattern reads in one way.** -/
theorem Reads.unique {mode : Mode} {pattern : Pattern} {cursor : Cursor} {left right : Reading}
    (h : grammar.Reads mode pattern cursor left) (h' : grammar.Reads mode pattern cursor right) :
    left = right := by
  obtain ⟨fuel, hleft⟩ := exists_run_of_reads h
  obtain ⟨fuel', hright⟩ := exists_run_of_reads h'
  have hleft := run_mono hleft (Nat.le_max_left fuel fuel')
  have hright := run_mono hright (Nat.le_max_right fuel fuel')
  exact Outcome.of_injective (hleft.symm.trans hright)

end GoStencil.Grammar
