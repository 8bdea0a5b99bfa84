import GoStencil.Grammar.Rule
import GoStencil.Grammar.Cursor

/-!
# Patterns and how they read a text

A pattern reads a prefix of a text or fails: choices are ordered, repetition takes as much as it
can, and nothing that has been read is given back. Between the elements of a sequence, and between
the rounds of a repetition, blanks and comments (the gap of the grammar) may stand, except inside
tokens.

* `Grammar.run`: what a pattern reads, with the parse tree of the named rules it went through.
* `Grammar.parse`: the parse of a whole text from a rule.
-/

namespace GoStencil.Grammar

/-- A parsing expression over the named rules. -/
inductive Pattern where
  /-- The given characters. -/
  | literal (text : List Char)
  /-- One character of a class. -/
  | satisfy (accepts : Char → Bool)
  /-- The start of the text. -/
  | atStart
  /-- The end of the text. -/
  | atEnd
  /-- A named rule. -/
  | call (rule : Rule)
  /-- One pattern after another. -/
  | seq (first second : Pattern)
  /-- The second pattern where the first fails. -/
  | alt (first second : Pattern)
  /-- The pattern, or nothing. -/
  | opt (pattern : Pattern)
  /-- The pattern any number of times. -/
  | many (pattern : Pattern)
  /-- Nothing, where the pattern would succeed. -/
  | ahead (pattern : Pattern)
  /-- Nothing, where the pattern would fail. -/
  | notAhead (pattern : Pattern)

/-- What may stand between the elements of a sequence, and whether rules make nodes. -/
inductive Mode where
  /-- Gaps are allowed, rules make nodes. -/
  | spaced
  /-- No gaps, rules make nodes. -/
  | tight
  /-- No gaps and no nodes: the inside of a token. -/
  | token
  deriving DecidableEq, Repr

/-- How a rule is read. -/
inductive RuleKind where
  /-- As the rule that calls it. -/
  | phrase
  /-- As one token. -/
  | token
  /-- Without gaps, but with nodes. -/
  | compound
  deriving DecidableEq, Repr

/-- The mode in which the body of a rule is read that was called in the given mode. -/
def RuleKind.inside : RuleKind → Mode → Mode
  | .phrase, mode => mode
  | .token, _ => .token
  | .compound, _ => .tight

end Grammar

/-- A grammar: the kind and the body of each rule, and what gaps consist of. -/
structure Grammar where
  gap : Grammar.Pattern
  kind : Grammar.Rule → Grammar.RuleKind
  body : Grammar.Rule → Grammar.Pattern

namespace Grammar

/-- A node of a parse tree: a rule, the places before and after what it read, and the nodes of
    the rules it called. -/
structure Node where
  rule : Rule
  start : Cursor
  stop : Cursor
  children : List Node

/-- The characters a node stands for. -/
def Node.chars (node : Node) : List Char :=
  node.start.upTo node.stop

/-- The text a node stands for. -/
def Node.text (node : Node) : String :=
  String.ofList node.chars

/-- The outcome of reading a pattern. -/
inductive Outcome where
  /-- The pattern read up to a place and made some nodes. -/
  | matched (nodes : List Node) (rest : Cursor)
  /-- The pattern does not fit. -/
  | failed
  /-- The allotted steps did not suffice. -/
  | unfinished

namespace Outcome

/-- The outcome of a test that makes no nodes. -/
def ofCursor? : Option Cursor → Outcome
  | some rest => .matched [] rest
  | none => .failed

/-- Goes on where a match ended, with the nodes of both. -/
def andThen (first : Outcome) (next : Cursor → Outcome) : Outcome :=
  match first with
  | .matched nodes rest =>
    match next rest with
    | .matched more last => .matched (nodes ++ more) last
    | other => other
  | other => other

/-- Repeats a step until it fails, at most the given number of rounds. `nodes` holds, last node
    first, what earlier rounds made. -/
def repeated (step : Cursor → Outcome) : Nat → List Node → Cursor → Outcome
  | 0, _, _ => .unfinished
  | rounds + 1, nodes, cursor =>
    match step cursor with
    | .matched more rest => repeated step rounds (more.reverse ++ nodes) rest
    | .failed => .matched nodes.reverse cursor
    | .unfinished => .unfinished

end Outcome

variable (grammar : Grammar)

/-- Reads a pattern. The number bounds the depth of the reading and the rounds of each repetition;
    `Outcome.unfinished` says that it was too small. -/
def run : Nat → Mode → Pattern → Cursor → Outcome
  | 0, _, _, _ => .unfinished
  | fuel + 1, mode, pattern, cursor =>
    let gap (cursor : Cursor) : Outcome :=
      if mode = .spaced then run fuel .token grammar.gap cursor else .matched [] cursor
    match pattern with
    | .literal text => .ofCursor? (cursor.skip? text)
    | .satisfy accepts => .ofCursor? (cursor.next? accepts)
    | .atStart => if cursor.offset = 0 then .matched [] cursor else .failed
    | .atEnd => if cursor.rest.isEmpty then .matched [] cursor else .failed
    | .call rule =>
      match run fuel ((grammar.kind rule).inside mode) (grammar.body rule) cursor with
      | .matched nodes rest =>
        .matched (if mode = .token then [] else [⟨rule, cursor, rest, nodes⟩]) rest
      | other => other
    | .seq first second =>
      (run fuel mode first cursor).andThen fun rest =>
        (gap rest).andThen fun rest => run fuel mode second rest
    | .alt first second =>
      match run fuel mode first cursor with
      | .failed => run fuel mode second cursor
      | other => other
    | .opt pattern =>
      match run fuel mode pattern cursor with
      | .failed => .matched [] cursor
      | other => other
    | .many pattern =>
      match run fuel mode pattern cursor with
      | .matched nodes rest =>
        Outcome.repeated (fun rest => (gap rest).andThen fun rest => run fuel mode pattern rest)
          fuel nodes.reverse rest
      | .failed => .matched [] cursor
      | .unfinished => .unfinished
    | .ahead pattern =>
      match run fuel mode pattern cursor with
      | .matched _ _ => .matched [] cursor
      | other => other
    | .notAhead pattern =>
      match run fuel mode pattern cursor with
      | .matched _ _ => .failed
      | .failed => .matched [] cursor
      | .unfinished => .unfinished

/-- Steps that suffice for a text of the given length. -/
def stepsFor (length : Nat) : Nat :=
  128 * (length + 2)

/-- The parse tree of a whole text, when the rule reads it. -/
def parse (rule : Rule) (text : String) : Option Node :=
  let cursor := Cursor.start text
  match run grammar (stepsFor cursor.rest.length) .spaced (.call rule) cursor with
  | .matched [node] _ => some node
  | _ => none

end Grammar

end GoStencil
