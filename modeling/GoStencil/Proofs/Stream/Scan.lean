import GoStencil.Body
import GoStencil.Text.Identifier
import Mathlib.Data.List.Chain

/-!
# Scanning a stream of tokens

A scan goes through a text from left to right, one lexeme at a time, and knows nothing of the
grammar: the first character of a lexeme decides what it is and how far it goes.

* `scan`: the lexemes of a text. `scan_cons_append` is its recursion, `chars_scan` says that no
  character is lost.
* `tailLength_append`: a lexeme does not depend on what follows the place where it ends.
* `isChain_scan`: two words never stand side by side.
* `Scans`: what has been scanned of a text with the rest in view, so that scans can be put together.
* `Lexeme.nest`: brackets that are matched, kind by kind.
-/

namespace GoStencil

/-! ## 1. Lexemes -/

/-- A piece of a stream. -/
inductive Lexeme where
  /-- An identifier or a keyword. -/
  | word (chars : List Char)
  | bracket (c : Char)
  /-- A literal, a number, a comment, or a character that is nothing else. -/
  | plain (chars : List Char)
  deriving DecidableEq, Repr

/-- The characters of a lexeme. -/
def Lexeme.chars : Lexeme → List Char
  | .word chars => chars
  | .bracket c => [c]
  | .plain chars => chars

/-- The characters of a word. -/
def Lexeme.word? : Lexeme → Option String
  | .word chars => some (String.ofList chars)
  | _ => none

/-- The bracket that closes what a character opens. -/
def closer? : Char → Option Char
  | '(' => some ')'
  | '[' => some ']'
  | '\x7b' => some '\x7d'
  | _ => none

/-- Whether the character is a bracket of any kind. -/
def isBracket (c : Char) : Bool :=
  ['(', ')', '[', ']', '\x7b', '\x7d'].contains c

/-- Whether the character ends a line. -/
def isLineEnd (c : Char) : Bool :=
  c == '\n' || c == '\r'

/-! ## 2. How far a lexeme goes -/

/-- A way to go on in a lexeme: from the next character, and the one after it if there is one, how
    many characters to take. None are taken where the lexeme ends. -/
abbrev Step :=
  Char → Option Char → Nat

/-- One character of a class. -/
def oneOfClass (p : Char → Bool) : Step :=
  fun c _ => if p c then 1 else 0

/-- The next piece of a number: a letter or digit, or a point with a digit after it. So `1.5e3` is
    one number, but `1.e3` is a number, a point and a word. -/
def numberStep : Step :=
  fun c next =>
    if c = '.' ∧ next.any Char.isDigit = true then 2 else if Text.isXidContinue c then 1 else 0

/-- The next piece of a literal before its closing quote, or before the end of the line. A backslash
    takes the character after it along. -/
def quotedStep (quote : Char) : Step :=
  fun c next =>
    if c = '\\' ∧ next.isSome = true then 2 else if c = quote ∨ isLineEnd c = true then 0 else 1

/-- The next character of a block comment before its end. -/
def blockStep : Step :=
  fun c next => if c = '*' ∧ next = some '/' then 0 else 1

/-- How many characters a step takes of a text. -/
def Step.take (step : Step) : List Char → Nat
  | [] => 0
  | c :: rest => step c rest.head?

theorem Step.take_cons (step : Step) (c : Char) (rest : List Char) :
    step.take (c :: rest) = step c rest.head? :=
  rfl

/-- How far steps go in a text. -/
def runLength (step : Step) : List Char → Nat
  | [] => 0
  | c :: rest =>
    match step c rest.head? with
    | 0 => 0
    | more + 1 => more + 1 + runLength step (rest.drop more)
termination_by cs => cs.length
decreasing_by
  rw [List.length_drop, List.length_cons]
  omega

/-- How much of what follows a slash makes a comment of it. -/
def commentLength : List Char → Nat
  | [] => 0
  | c :: rest =>
    if c = '/' then 1 + runLength (oneOfClass (!isLineEnd ·)) rest
    else if c = '*' then 1 + (runLength blockStep rest + 2)
    else 0

/-- How much of a text belongs to the lexeme that the character before it starts. -/
def tailLength (c : Char) (rest : List Char) : Nat :=
  if Text.isIdentifierStart c then runLength (oneOfClass Text.isXidContinue) rest
  else if c.isDigit then runLength numberStep rest
  else if c = '"' ∨ c = '\'' then runLength (quotedStep c) rest + 1
  else if c = '\x60' then runLength (oneOfClass (· != '\x60')) rest + 1
  else if c = '/' then commentLength rest
  else 0

/-- The lexeme of some characters, of which the first decides. -/
def Lexeme.of (c : Char) (tail : List Char) : Lexeme :=
  if Text.isIdentifierStart c then .word (c :: tail)
  else if isBracket c then .bracket c
  else .plain (c :: tail)

/-- The lexemes of a text. -/
def scan : List Char → List Lexeme
  | [] => []
  | c :: rest =>
    Lexeme.of c (rest.take (tailLength c rest)) :: scan (rest.drop (tailLength c rest))
termination_by cs => cs.length
decreasing_by
  rw [List.length_drop, List.length_cons]
  omega

/-- The identifiers that a scan finds. -/
def scanWords (text : String) : List String :=
  (scan text.toList).filterMap Lexeme.word?

/-! ## 3. A lexeme ends where it ends -/

theorem runLength_of_take_eq_zero {step : Step} {cs : List Char} (h : step.take cs = 0) :
    runLength step cs = 0 := by
  cases cs with
  | nil => rw [runLength]
  | cons c rest =>
    have htake : step c rest.head? = 0 := h
    rw [runLength, htake]

/-- Whether the end of a text makes no difference to a step, unless it falls into what the step
    takes or into the given number of characters after that. -/
def Step.EndsWithin (step : Step) (closing : Nat) : Prop :=
  ∀ c next, step c (some next) + closing ≤ 1 → step c none = step c (some next)

theorem runLength_cons {step : Step} {c : Char} {rest : List Char} {more : Nat}
    (h : step.take (c :: rest) = more + 1) :
    runLength step (c :: rest) = more + 1 + runLength step (rest.drop more) := by
  have htake : step c rest.head? = more + 1 := h
  rw [runLength, htake]

section EndsWithin

variable {step : Step} {closing : Nat}

theorem Step.EndsWithin.take_append (h : step.EndsWithin closing) {cs : List Char}
    (rest : List Char) (hle : step.take (cs ++ rest) + closing ≤ cs.length) :
    step.take cs = step.take (cs ++ rest) := by
  match cs, rest with
  | [], _ => exact (Nat.eq_zero_of_add_eq_zero_right (Nat.le_zero.mp hle)).symm
  | [c], [] => rfl
  | [c], d :: rest => exact h c d hle
  | c :: d :: cs, rest => rfl

/-- How far steps go does not depend on what comes after that. -/
theorem Step.EndsWithin.runLength_append (h : step.EndsWithin closing) {cs : List Char}
    (rest : List Char) (hle : runLength step (cs ++ rest) + closing ≤ cs.length) :
    runLength step cs = runLength step (cs ++ rest) := by
  induction hn : cs.length using Nat.strongRecOn generalizing cs with
  | ind n ih =>
    subst hn
    cases htake : step.take (cs ++ rest) with
    | zero =>
      have hcs : step.take cs = 0 := by
        rw [h.take_append rest (by omega), htake]
      rw [runLength_of_take_eq_zero htake, runLength_of_take_eq_zero hcs]
    | succ more =>
      cases cs with
      | nil =>
        rw [runLength]
        exact (Nat.eq_zero_of_add_eq_zero_right (Nat.le_zero.mp hle)).symm
      | cons c cs =>
        rw [List.cons_append] at htake hle ⊢
        rw [runLength_cons htake, List.length_cons] at hle
        have hcs : step.take (c :: cs) = more + 1 := by
          rw [h.take_append rest (by rw [List.cons_append, htake, List.length_cons]; omega),
            List.cons_append, htake]
        have hdrop : (cs ++ rest).drop more = cs.drop more ++ rest :=
          List.drop_append_of_le_length (by omega)
        rw [hdrop] at hle
        rw [runLength_cons htake, runLength_cons hcs, hdrop]
        have hlength : (cs.drop more).length = cs.length - more := List.length_drop
        rw [ih _ (by rw [hlength, List.length_cons]; omega) (by omega) rfl]

end EndsWithin

theorem endsWithin_oneOfClass (closing : Nat) (p : Char → Bool) :
    Step.EndsWithin (oneOfClass p) closing :=
  fun _ _ _ => rfl

theorem endsWithin_numberStep : Step.EndsWithin numberStep 0 := by
  intro c d h
  unfold numberStep at h ⊢
  split at h
  · omega
  · rename_i hpoint
    rw [if_neg hpoint, if_neg fun hnone => by cases hnone.2]

theorem endsWithin_quotedStep (quote : Char) : Step.EndsWithin (quotedStep quote) 1 := by
  intro c d h
  unfold quotedStep at h ⊢
  split at h
  · omega
  · rename_i hescape
    rw [if_neg hescape, if_neg fun hnone => by cases hnone.2]

theorem endsWithin_blockStep : Step.EndsWithin blockStep 2 := by
  intro c d h
  omega

theorem commentLength_append {cs : List Char} (rest : List Char)
    (h : commentLength (cs ++ rest) ≤ cs.length) :
    commentLength cs = commentLength (cs ++ rest) := by
  cases cs with
  | nil => exact (Nat.le_zero.mp h).symm
  | cons c cs =>
    rw [List.cons_append, commentLength, List.length_cons] at h
    rw [List.cons_append, commentLength, commentLength]
    split_ifs at h ⊢
    · rw [(endsWithin_oneOfClass 0 _).runLength_append rest (by omega)]
    · rw [endsWithin_blockStep.runLength_append rest (by omega)]
    · rfl

/-- **A lexeme does not depend on what follows the place where it ends.** -/
theorem tailLength_append {c : Char} {cs : List Char} (rest : List Char)
    (h : tailLength c (cs ++ rest) ≤ cs.length) : tailLength c cs = tailLength c (cs ++ rest) := by
  unfold tailLength at h ⊢
  split_ifs at h ⊢
  · exact (endsWithin_oneOfClass 0 _).runLength_append rest h
  · exact endsWithin_numberStep.runLength_append rest h
  · rw [(endsWithin_quotedStep c).runLength_append rest h]
  · rw [(endsWithin_oneOfClass 1 _).runLength_append rest h]
  · exact commentLength_append rest h
  · rfl

/-! ## 4. What may come after a text -/

/-- Whether a step takes no more than there is. -/
def Step.Fits (step : Step) : Prop :=
  ∀ c next, step c next ≤ 1 + next.toList.length

theorem fits_oneOfClass (p : Char → Bool) : Step.Fits (oneOfClass p) := by
  intro c next
  unfold oneOfClass
  split <;> omega

theorem fits_numberStep : Step.Fits numberStep := by
  intro c next
  unfold numberStep
  split_ifs with hpoint
  · cases next with
    | none => cases hpoint.2
    | some d => exact Nat.le_refl 2
  · omega
  · omega

theorem fits_quotedStep (quote : Char) : Step.Fits (quotedStep quote) := by
  intro c next
  unfold quotedStep
  split_ifs with hescape
  · cases next with
    | none => cases hescape.2
    | some d => exact Nat.le_refl 2
  · omega
  · omega

theorem fits_blockStep : Step.Fits blockStep := by
  intro c next
  unfold blockStep
  split <;> omega

section Fits

variable {step : Step}

theorem Step.Fits.take_le (h : step.Fits) (cs : List Char) : step.take cs ≤ cs.length := by
  match cs with
  | [] => exact Nat.le_refl 0
  | [c] => exact h c none
  | c :: d :: rest =>
    have hle : step c (some d) ≤ 2 := h c (some d)
    exact Nat.le_trans hle (Nat.le_add_left 2 rest.length)

theorem Step.Fits.runLength_le (h : step.Fits) (cs : List Char) :
    runLength step cs ≤ cs.length := by
  fun_induction runLength step cs with
  | case1 => exact Nat.le_refl 0
  | case2 c rest => exact Nat.zero_le _
  | case3 c rest more htake ih =>
    have hle := h.take_le (c :: rest)
    rw [Step.take_cons, htake, List.length_cons] at hle
    rw [List.length_drop] at ih
    rw [List.length_cons]
    omega

/-- How far steps go in a text that goes further stays the same when more comes after it, if this
    makes no difference to a step that stops at its last character. -/
theorem Step.Fits.runLength_extend (h : step.Fits) {cs : List Char} (rest : List Char)
    (hlt : runLength step cs < cs.length)
    (hstay : cs.length = runLength step cs + 1 →
      ∀ c, cs.getLast? = some c → step c none = 0 → step c rest.head? = 0) :
    runLength step (cs ++ rest) = runLength step cs := by
  fun_induction runLength step cs with
  | case1 => exact absurd hlt (Nat.lt_irrefl 0)
  | case2 c cs hzero =>
    refine runLength_of_take_eq_zero ?_
    cases cs with
    | nil => exact hstay rfl c rfl hzero
    | cons d cs => exact hzero
  | case3 c cs more htake ih =>
    have hle := h.take_le (c :: cs)
    rw [Step.take_cons, htake, List.length_cons] at hle
    have hlength : (cs.drop more).length = cs.length - more := List.length_drop
    rw [List.length_cons] at hlt hstay
    have hext : step.take (c :: (cs ++ rest)) = more + 1 := by
      cases cs with
      | nil =>
        rw [List.length_nil] at hlt
        omega
      | cons d cs => exact htake
    have hdrop : (cs ++ rest).drop more = cs.drop more ++ rest :=
      List.drop_append_of_le_length (by omega)
    rw [List.cons_append, runLength_cons hext, hdrop, ih (by omega)]
    intro hn d hd
    refine hstay (by omega) d ?_
    rw [List.getLast?_drop] at hd
    split at hd
    · cases hd
    · rw [List.getLast?_cons, hd]
      rfl

end Fits

theorem runLength_quotedStep_append {quote : Char} {cs rest : List Char}
    (hquote : quote ≠ '\\') (h : runLength (quotedStep quote) cs < cs.length) :
    runLength (quotedStep quote) (cs ++ rest) = runLength (quotedStep quote) cs := by
  refine (fits_quotedStep quote).runLength_extend rest h fun _ c _ hzero => ?_
  have hstop : c = quote ∨ isLineEnd c = true := by
    unfold quotedStep at hzero
    split_ifs at hzero with _ hstop
    exact hstop
  have hescape : c ≠ '\\' := by
    rintro rfl
    rcases hstop with hc | hc
    · exact hquote hc.symm
    · cases hc
  rw [quotedStep, if_neg fun hpair => hescape hpair.1, if_pos hstop]

/-! ## 5. Scanning with the rest in view -/

/-- Whether the lexeme of some characters ends where they end. -/
def Ends (c : Char) (tail rest : List Char) : Prop :=
  tailLength c (tail ++ rest) = tail.length

/-- A scan goes on where a lexeme ends. -/
theorem scan_cons_append {c : Char} {tail rest : List Char} (h : Ends c tail rest) :
    scan (c :: (tail ++ rest)) = Lexeme.of c tail :: scan rest := by
  rw [scan, h, List.take_left, List.drop_left]

theorem Ends.of_append {c : Char} {tail rest after : List Char} (h : Ends c tail (rest ++ after)) :
    Ends c tail rest := by
  unfold Ends at h ⊢
  rw [← List.append_assoc] at h
  rw [tailLength_append after (by rw [h, List.length_append]; omega), h]

/-- What is scanned of a text up to some place, with the rest of the text in view. -/
inductive Scans : List Char → List Lexeme → List Char → Prop where
  | done {rest : List Char} : Scans rest [] rest
  | more {c : Char} {tail mid rest : List Char} {lexemes : List Lexeme} (h : Ends c tail mid)
      (hrest : Scans mid lexemes rest) :
      Scans (c :: (tail ++ mid)) (Lexeme.of c tail :: lexemes) rest

namespace Scans

variable {input mid rest : List Char} {first second : List Lexeme}

theorem trans (h : Scans input first mid) (h' : Scans mid second rest) :
    Scans input (first ++ second) rest := by
  induction h with
  | done => exact h'
  | more hends _ ih => exact .more hends (ih h')

theorem one {c : Char} {tail rest : List Char} (h : Ends c tail rest) :
    Scans (c :: (tail ++ rest)) [Lexeme.of c tail] rest :=
  .more h .done

theorem of_cons {lexeme : Lexeme} (h : Scans input (lexeme :: first) rest) :
    ∃ c tail mid, input = c :: (tail ++ mid) ∧ lexeme = Lexeme.of c tail ∧ Ends c tail mid ∧
      Scans mid first rest := by
  generalize hlexemes : lexeme :: first = lexemes at h
  cases h with
  | done => cases hlexemes
  | more hends hrest =>
    cases hlexemes
    exact ⟨_, _, _, rfl, rfl, hends, hrest⟩

theorem of_append (h : Scans input (first ++ second) rest) :
    ∃ mid, Scans input first mid ∧ Scans mid second rest := by
  induction first generalizing input with
  | nil => exact ⟨input, .done, h⟩
  | cons lexeme first ih =>
    obtain ⟨c, tail, next, rfl, rfl, hends, hrest⟩ := h.of_cons
    obtain ⟨mid, hfirst, hsecond⟩ := ih hrest
    exact ⟨mid, .more hends hfirst, hsecond⟩

/-- **What is scanned with the rest in view is the scan of what comes before the rest.** -/
theorem exists_scan (h : Scans input first rest) :
    ∃ cs, input = cs ++ rest ∧ scan cs = first := by
  induction h with
  | done => exact ⟨[], rfl, by rw [scan]⟩
  | @more c tail mid rest lexemes hends _ ih =>
    obtain ⟨cs, rfl, hscan⟩ := ih
    refine ⟨c :: (tail ++ cs), by simp, ?_⟩
    rw [scan_cons_append hends.of_append, hscan]

end Scans

/-! ## 6. What a scan is like -/

theorem cases_of_isBracket {c : Char} (h : isBracket c = true) :
    c = '(' ∨ c = ')' ∨ c = '[' ∨ c = ']' ∨ c = '\x7b' ∨ c = '\x7d' := by
  simpa only [isBracket, List.contains_iff_mem, List.mem_cons, List.not_mem_nil, or_false] using h

theorem tailLength_of_isBracket {c : Char} (h : isBracket c = true) (rest : List Char) :
    tailLength c rest = 0 := by
  rcases cases_of_isBracket h with rfl | rfl | rfl | rfl | rfl | rfl <;> rfl

theorem Lexeme.of_isBracket {c : Char} (h : isBracket c = true) (tail : List Char) :
    Lexeme.of c tail = .bracket c := by
  rcases cases_of_isBracket h with rfl | rfl | rfl | rfl | rfl | rfl <;> rfl

theorem Lexeme.eq_of_word {c : Char} {tail cs : List Char} (h : Lexeme.word cs = Lexeme.of c tail) :
    Text.isIdentifierStart c = true ∧ cs = c :: tail := by
  unfold Lexeme.of at h
  split_ifs at h with hstart
  cases h
  exact ⟨hstart, rfl⟩

theorem Lexeme.eq_of_plain {c : Char} {tail cs : List Char}
    (h : Lexeme.plain cs = Lexeme.of c tail) : cs = c :: tail := by
  unfold Lexeme.of at h
  split_ifs at h
  cases h
  rfl

theorem Lexeme.eq_of_bracket {c d : Char} {tail : List Char}
    (h : Lexeme.bracket d = Lexeme.of c tail) : isBracket c = true ∧ d = c := by
  unfold Lexeme.of at h
  split_ifs at h with hstart hbracket
  cases h
  exact ⟨hbracket, rfl⟩

theorem Lexeme.chars_of {c : Char} {tail : List Char} (h : isBracket c = true → tail = []) :
    (Lexeme.of c tail).chars = c :: tail := by
  unfold Lexeme.of
  split_ifs with hstart hbracket
  · rfl
  · rw [h hbracket]
    rfl
  · rfl

/-- **A scan loses no character.** -/
theorem chars_scan (cs : List Char) : (scan cs).flatMap Lexeme.chars = cs := by
  fun_induction scan cs with
  | case1 => rfl
  | case2 c rest ih =>
    rw [List.flatMap_cons, ih, Lexeme.chars_of fun h => by rw [tailLength_of_isBracket h]; rfl,
      List.cons_append, List.take_append_drop]

/-- Steps go on as long as they take something. -/
theorem take_drop_runLength (step : Step) (cs : List Char) :
    step.take (cs.drop (runLength step cs)) = 0 := by
  fun_induction runLength step cs with
  | case1 => rfl
  | case2 c rest h => exact h
  | case3 c rest more h ih =>
    rwa [Nat.add_right_comm, List.drop_succ_cons, ← List.drop_drop]

/-- Whether the lexeme is a word. -/
def Lexeme.isWord : Lexeme → Bool
  | .word _ => true
  | _ => false

theorem Lexeme.isWord_of (c : Char) (tail : List Char) :
    (Lexeme.of c tail).isWord = Text.isIdentifierStart c := by
  unfold Lexeme.of
  split_ifs with hstart <;> simp [isWord, hstart]

/-- **No word stands next to another.** The first would have gone on. -/
theorem isChain_scan (cs : List Char) :
    (scan cs).IsChain fun first second => first.isWord = true → second.isWord = false := by
  fun_induction scan cs with
  | case1 => exact .nil
  | case2 c rest ih =>
    refine ih.cons fun next hnext hword => ?_
    rw [Lexeme.isWord_of] at hword
    have hlength : tailLength c rest = runLength (oneOfClass Text.isXidContinue) rest := by
      rw [tailLength, if_pos hword]
    have hstop := take_drop_runLength (oneOfClass Text.isXidContinue) rest
    rw [hlength] at hnext
    cases hafter : rest.drop (runLength (oneOfClass Text.isXidContinue) rest) with
    | nil =>
      rw [hafter, scan] at hnext
      cases hnext
    | cons d after =>
      rw [hafter, scan] at hnext
      cases hnext
      rw [hafter] at hstop
      rw [Lexeme.isWord_of]
      cases hd : Text.isIdentifierStart d with
      | false => rfl
      | true =>
        have hcontinue := Text.isXidContinue_of_isIdentifierStart hd
        simp [Step.take, oneOfClass, hcontinue] at hstop

/-! ## 7. Brackets -/

/-- The closing brackets that are still missing after some lexemes, the innermost first, when they
    were missing before. There are none where a bracket closes what is not open. -/
def Lexeme.nest : List Char → List Lexeme → Option (List Char)
  | missing, [] => some missing
  | missing, .bracket c :: rest =>
    match closer? c, missing with
    | some closing, missing => nest (closing :: missing) rest
    | none, expected :: missing => if c = expected then nest missing rest else none
    | none, [] => none
  | missing, _ :: rest => nest missing rest

/-- Whether the brackets in a text are matched, as far as they are not in literals or comments. -/
def isBalanced (text : String) : Bool :=
  Lexeme.nest [] (scan text.toList) == some []

/-- Whether some lexemes leave the brackets open that were open before. -/
def Balanced (lexemes : List Lexeme) : Prop :=
  ∀ missing rest, Lexeme.nest missing (lexemes ++ rest) = Lexeme.nest missing rest

theorem balanced_nil : Balanced [] :=
  fun _ _ => rfl

theorem Balanced.append {first second : List Lexeme} (h : Balanced first) (h' : Balanced second) :
    Balanced (first ++ second) := by
  intro missing rest
  rw [List.append_assoc, h, h']

theorem balanced_word (chars : List Char) : Balanced [.word chars] :=
  fun _ _ => rfl

theorem balanced_plain (chars : List Char) : Balanced [.plain chars] :=
  fun _ _ => rfl

/-- What stands in brackets of one kind is balanced as a whole. -/
theorem Balanced.group {lexemes : List Lexeme} (h : Balanced lexemes) {opening closing : Char}
    (hopening : closer? opening = some closing) (hclosing : closer? closing = none) :
    Balanced (.bracket opening :: (lexemes ++ [.bracket closing])) := by
  intro missing rest
  have hopen : ∀ rest, Lexeme.nest missing (.bracket opening :: rest) =
      Lexeme.nest (closing :: missing) rest := by
    intro rest
    simp only [Lexeme.nest, hopening]
  have hclose : Lexeme.nest (closing :: missing) (.bracket closing :: rest) =
      Lexeme.nest missing rest := by
    simp only [Lexeme.nest, hclosing, if_true]
  rw [List.cons_append, hopen, List.append_assoc, h, List.singleton_append, hclose]

end GoStencil
