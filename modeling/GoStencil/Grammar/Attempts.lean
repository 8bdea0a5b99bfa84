import GoStencil.Grammar.Pattern

/-!
# Which rules were tried where a text is refused

A second reading of a pattern, which makes no nodes but remembers the furthest place at which some
rule was tried in vain, and the rules tried there: those that were expected and failed, and those
that must not stand there and succeeded.

A rule that fails replaces the rules it tried at the same place, unless these left exactly one
more attempt: then the inner rule is the better description. Nothing inside a token is remembered.

* `Grammar.probe`: the reading.
* `Grammar.attempts`: what it remembers of a whole text.
-/

namespace GoStencil.Grammar

/-- Whether a pattern is wanted where it is tried. -/
inductive Lookahead where
  /-- It is being read. -/
  | none
  /-- It has to fit here. -/
  | positive
  /-- It must not fit here. -/
  | negative
  deriving DecidableEq, Repr

/-- The sense in which a pattern is tried that must fit. -/
def Lookahead.affirmed : Lookahead → Lookahead
  | .negative => .negative
  | _ => .positive

/-- The sense in which a pattern is tried that must not fit. -/
def Lookahead.negated : Lookahead → Lookahead
  | .negative => .positive
  | _ => .negative

/-- The rules tried in vain at the furthest place where any was. -/
structure Attempts where
  /-- The byte offset of that place. -/
  furthest : Nat
  /-- Rules that failed, in the order of the attempts. -/
  expected : List Rule
  /-- Rules that fitted where they must not. -/
  unexpected : List Rule

namespace Attempts

/-- No attempts. -/
def none : Attempts :=
  ⟨0, [], []⟩

/-- How many attempts are remembered at a place. -/
def countAt (attempts : Attempts) (offset : Nat) : Nat :=
  if offset = attempts.furthest then attempts.expected.length + attempts.unexpected.length else 0

/-- What is remembered after a rule was tried in vain at a place, where `before` is what was
    remembered before the rule was tried. -/
def record (before after : Attempts) (rule : Rule) (unwanted : Bool) (offset : Nat) : Attempts :=
  if after.countAt offset = before.countAt offset + 1 then after
  else
    let kept :=
      if offset = after.furthest then
        if offset = before.furthest then
          ⟨offset, after.expected.take before.expected.length,
            after.unexpected.take before.unexpected.length⟩
        else ⟨offset, [], []⟩
      else if after.furthest < offset then ⟨offset, [], []⟩
      else after
    if offset = kept.furthest then
      if unwanted then { kept with unexpected := kept.unexpected ++ [rule] }
      else { kept with expected := kept.expected ++ [rule] }
    else kept

end Attempts

/-- The outcome of a reading without nodes. -/
inductive Verdict where
  | passed (rest : Cursor)
  | failed
  | unfinished

/-- The verdict of an outcome. -/
def Outcome.verdict : Outcome → Verdict
  | .matched _ rest => .passed rest
  | .failed => .failed
  | .unfinished => .unfinished

/-- Repeats a step until it fails, at most the given number of rounds. -/
def Verdict.repeated (step : Cursor → Attempts → Verdict × Attempts) :
    Nat → Cursor → Attempts → Verdict × Attempts
  | 0, _, attempts => (.unfinished, attempts)
  | rounds + 1, cursor, attempts =>
    match step cursor attempts with
    | (.passed rest, attempts) => repeated step rounds rest attempts
    | (.failed, attempts) => (.passed cursor, attempts)
    | (.unfinished, attempts) => (.unfinished, attempts)

variable (grammar : Grammar)

/-- Reads a pattern and remembers what was tried. -/
def probe : Nat → Mode → Lookahead → Pattern → Cursor → Attempts → Verdict × Attempts
  | 0, _, _, _, _, attempts => (.unfinished, attempts)
  | fuel + 1, mode, sense, pattern, cursor, attempts =>
    let gapThen (second : Pattern) (cursor : Cursor) (attempts : Attempts) : Verdict × Attempts :=
      if mode = .spaced then
        match run grammar fuel .token grammar.gap cursor with
        | .matched _ rest => probe fuel mode sense second rest attempts
        | other => (other.verdict, attempts)
      else probe fuel mode sense second cursor attempts
    match pattern with
    | .literal _ | .satisfy _ | .atStart | .atEnd =>
      ((run grammar (fuel + 1) mode pattern cursor).verdict, attempts)
    | .call rule =>
      let kind := grammar.kind rule
      let (verdict, after) :=
        probe fuel (kind.inside mode) sense (grammar.body rule) cursor attempts
      let inVain :=
        match verdict with
        | .passed _ => sense = .negative
        | _ => sense ≠ .negative
      if inVain && (mode ≠ .token || kind = .compound) then
        (verdict, attempts.record after rule (sense = .negative) cursor.offset)
      else (verdict, after)
    | .seq first second =>
      match probe fuel mode sense first cursor attempts with
      | (.passed rest, attempts) => gapThen second rest attempts
      | other => other
    | .alt first second =>
      match probe fuel mode sense first cursor attempts with
      | (.failed, attempts) => probe fuel mode sense second cursor attempts
      | other => other
    | .opt pattern =>
      match probe fuel mode sense pattern cursor attempts with
      | (.failed, attempts) => (.passed cursor, attempts)
      | other => other
    | .many pattern =>
      match probe fuel mode sense pattern cursor attempts with
      | (.passed rest, attempts) => Verdict.repeated (gapThen pattern) fuel rest attempts
      | (.failed, attempts) => (.passed cursor, attempts)
      | other => other
    | .ahead pattern =>
      match probe fuel mode sense.affirmed pattern cursor attempts with
      | (.passed _, attempts) => (.passed cursor, attempts)
      | other => other
    | .notAhead pattern =>
      match probe fuel mode sense.negated pattern cursor attempts with
      | (.passed _, attempts) => (.failed, attempts)
      | (.failed, attempts) => (.passed cursor, attempts)
      | other => other

/-- What is remembered of a text that is read from a rule. -/
def attempts (rule : Rule) (text : String) : Attempts :=
  let cursor := Cursor.start text
  (probe grammar (stepsFor cursor.rest.length) .spaced .none (.call rule) cursor .none).2

end GoStencil.Grammar
