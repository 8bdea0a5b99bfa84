import GoStencil.Proofs.Stream.Scan
import GoStencil.Text.Blank

/-!
# The tokens of a text

A text of a stream is made of tokens, with white space and comments between them. Which characters
make a token is decided from left to right, and as many as possible are taken.

* `parts`: the tokens, comments and blanks of a text in order; `flatten_parts` says that no
  character is lost.
* `tokens`: the tokens alone.
* `getLast_of_isToken`: how a token ends. Only the tokens that are dots, a comma or an opening brace
  end with such a character.
-/

namespace GoStencil

/-! ## 1. Parts of a text -/

/-- The operators of more than one character. One that begins with another stands before it. -/
def longOperators : List String :=
  ["<<=", ">>=", "&^=", "...", "&&", "||", "<-", "++", "--", "==", "!=", "<=", ">=", ":=", "+=",
   "-=", "*=", "/=", "%=", "&=", "|=", "^=", "<<", ">>", "&^"]

/-- How much of a text belongs to the operator that the character before it starts. -/
def operatorLength (c : Char) (rest : List Char) : Nat :=
  match longOperators.find? fun operator => operator.toList.isPrefixOf (c :: rest) with
  | some operator => operator.toList.length - 1
  | none => 0

/-- Whether the character is a quote of any kind. -/
def isQuote (c : Char) : Bool :=
  c == '"' || c == '\'' || c == '\x60'

/-- Whether what follows a character closes the literal or the comment that it opens. -/
def closes (c : Char) (tail : List Char) : Bool :=
  if isQuote c then tail.getLast? == some c
  else if c == '/' then tail.head? != some '*' || List.isSuffixOf ['*', '/'] tail.tail
  else true

/-- How much of a text belongs to the token or comment that the character before it starts. A quote
    that nothing closes is a token by itself. -/
def partLength (c : Char) (rest : List Char) : Nat :=
  if tailLength c rest = 0 then operatorLength c rest
  else if tailLength c rest ≤ rest.length ∧ closes c (rest.take (tailLength c rest)) = true then
    tailLength c rest
  else 0

/-- The tokens, the comments and the blanks of a text. -/
def parts : List Char → List (List Char)
  | [] => []
  | c :: rest =>
    (c :: rest.take (partLength c rest)) :: parts (rest.drop (partLength c rest))
termination_by cs => cs.length
decreasing_by
  rw [List.length_drop, List.length_cons]
  omega

/-- Whether a part is white space. -/
def isBlankPart (part : List Char) : Bool :=
  part.head?.any Text.isBlank

/-- Whether a part is a comment up to the end of its line. -/
def isLineComment (part : List Char) : Bool :=
  List.isPrefixOf ['/', '/'] part

/-- Whether a part is a comment. -/
def isComment (part : List Char) : Bool :=
  isLineComment part || List.isPrefixOf ['/', '*'] part

/-- Whether a part is neither white space nor a comment. -/
def isToken (part : List Char) : Bool :=
  !isBlankPart part && !isComment part

/-- The tokens of a text. -/
def tokens (text : String) : List (List Char) :=
  (parts text.toList).filter isToken

theorem flatten_parts (cs : List Char) : (parts cs).flatten = cs := by
  fun_induction parts cs with
  | case1 => rfl
  | case2 c rest ih => simp [ih]

theorem exists_of_mem_parts {part : List Char} {cs : List Char} (h : part ∈ parts cs) :
    ∃ (c : Char) (rest : List Char), part = c :: rest.take (partLength c rest) := by
  fun_induction parts cs with
  | case1 => exact nomatch h
  | case2 c rest ih =>
    rcases List.mem_cons.mp h with rfl | h
    · exact ⟨c, rest, rfl⟩
    · exact ih h

/-! ## 2. How a part ends -/

/-- An identifier goes on with no white space. -/
theorem isBlank_of_isXidContinue {c : Char} (h : Text.isXidContinue c = true) :
    Text.isBlank c = false := by
  have hblanks : ∀ n ∈ Text.blankRanges.flatMap fun range =>
      List.range' range.1 (range.2 + 1 - range.1), Text.isXidContinue (Char.ofNat n) = false := by
    decide +kernel
  refine Bool.eq_false_iff.mpr fun hblank => ?_
  obtain ⟨range, hrange, hlower, hupper⟩ := Text.Ranges.covers_iff.mp hblank
  have hnone := hblanks c.toNat (List.mem_flatMap.mpr ⟨range, hrange, by
    rw [List.mem_range'_1]; omega⟩)
  rw [Char.ofNat_toNat, h] at hnone
  cases hnone

theorem isXidContinue_of_isDigit_or_start {c : Char}
    (h : Text.isIdentifierStart c = true ∨ c.isDigit = true) : Text.isXidContinue c = true := by
  rcases h with h | h
  · exact Text.isXidContinue_of_isIdentifierStart h
  · have hascii : c.val < 0x80 := by
      have hle := of_decide_eq_true (Bool.and_eq_true_iff.mp h).2
      exact Nat.lt_of_le_of_lt hle (by decide)
    simp [Text.isXidContinue, hascii, h]

/-- Whether the last character that a step takes is always of a class. -/
def Step.EndsIn (step : Step) (p : Char → Bool) : Prop :=
  ∀ c next, step c next = 0 ∨ (step c next = 1 ∧ p c = true) ∨
    (step c next = 2 ∧ ∃ d, next = some d ∧ p d = true)

theorem endsIn_oneOfClass (p : Char → Bool) : Step.EndsIn (oneOfClass p) p := by
  intro c next
  cases hc : p c <;> simp [oneOfClass, hc]

theorem endsIn_numberStep : Step.EndsIn numberStep Text.isXidContinue := by
  intro c next
  unfold numberStep
  split_ifs with hpoint hchar
  · cases next with
    | none => cases hpoint.2
    | some d => exact .inr (.inr ⟨rfl, d, rfl, isXidContinue_of_isDigit_or_start (.inr hpoint.2)⟩)
  · exact .inr (.inl ⟨rfl, hchar⟩)
  · exact .inl rfl

/-- A run of steps ends as its last step does. -/
theorem Step.EndsIn.getLast?_take_runLength {step : Step} {p : Char → Bool} (h : step.EndsIn p)
    (cs : List Char) : ∀ d ∈ (cs.take (runLength step cs)).getLast?, p d = true := by
  fun_induction runLength step cs with
  | case1 | case2 =>
    intro d hd
    cases hd
  | case3 c rest more htake ih =>
    have htakes : (c :: rest).take (more + 1 + runLength step (rest.drop more)) =
        (c :: rest.take more) ++ (rest.drop more).take (runLength step (rest.drop more)) := by
      rw [Nat.add_right_comm, List.take_succ_cons, List.take_add, List.cons_append]
    intro d hd
    rw [htakes, List.getLast?_append, Option.mem_def, Option.or_eq_some_iff] at hd
    rcases hd with hd | ⟨-, hd⟩
    · exact ih d hd
    · rcases h c rest.head? with hnone | ⟨hone, hc⟩ | ⟨htwo, e, he, hclass⟩
      · omega
      · obtain rfl : more = 0 := by omega
        cases hd
        exact hc
      · obtain rfl : more = 1 := by omega
        obtain ⟨after, rfl⟩ := List.head?_eq_some_iff.mp he
        cases hd
        exact hclass

theorem getLast?_cons_of_forall {p : Char → Bool} {c : Char} {cs : List Char} (hc : p c = true)
    (hcs : ∀ d ∈ cs.getLast?, p d = true) : ∀ d ∈ (c :: cs).getLast?, p d = true := by
  intro d hd
  rw [List.getLast?_cons, Option.mem_def, Option.some.injEq] at hd
  cases hlast : cs.getLast? with
  | none =>
    rw [hlast] at hd
    cases hd
    exact hc
  | some e =>
    rw [hlast] at hd
    cases hd
    exact hcs e hlast

/-- A word or a number ends with a letter or a digit. -/
theorem isXidContinue_getLast {c : Char} {rest : List Char}
    (hstart : Text.isIdentifierStart c = true ∨ c.isDigit = true) :
    ∀ d ∈ (c :: rest.take (tailLength c rest)).getLast?, Text.isXidContinue d = true := by
  refine getLast?_cons_of_forall (isXidContinue_of_isDigit_or_start hstart) ?_
  unfold tailLength
  by_cases hword : Text.isIdentifierStart c = true
  · rw [if_pos hword]
    exact (endsIn_oneOfClass _).getLast?_take_runLength rest
  · rw [if_neg hword, if_pos (hstart.resolve_left hword)]
    exact endsIn_numberStep.getLast?_take_runLength rest

/-- A part is one character, an operator, or what is closed. -/
theorem part_cases (c : Char) (rest : List Char) :
    partLength c rest = 0 ∨
      (∃ operator ∈ longOperators, c :: rest.take (partLength c rest) = operator.toList) ∨
      (tailLength c rest ≠ 0 ∧ partLength c rest = tailLength c rest ∧
        closes c (rest.take (tailLength c rest)) = true) := by
  unfold partLength
  split_ifs with htail hcloses
  · unfold operatorLength
    split
    · rename_i operator hfind
      have hprefix : operator.toList <+: c :: rest := by simpa using List.find?_some hfind
      refine .inr (.inl ⟨operator, List.mem_of_find?_eq_some hfind, ?_⟩)
      obtain ⟨after, hafter⟩ := hprefix
      cases hchars : operator.toList with
      | nil =>
        have hne : ∀ operator ∈ longOperators, operator.toList ≠ [] := by decide
        exact absurd hchars (hne operator (List.mem_of_find?_eq_some hfind))
      | cons d cs =>
        rw [hchars, List.cons_append, List.cons.injEq] at hafter
        obtain ⟨rfl, rfl⟩ := hafter
        simp
    · exact .inl rfl
  · exact .inr (.inr ⟨htail, rfl, hcloses.2⟩)
  · exact .inl rfl

theorem tailLength_of_isBlank {c : Char} (h : Text.isBlank c = true) (rest : List Char) :
    tailLength c rest = 0 := by
  have hchar : Text.isXidContinue c = false :=
    Bool.eq_false_iff.mpr fun hchar => by simp [isBlank_of_isXidContinue hchar] at h
  have hstart : ¬ (Text.isIdentifierStart c = true ∨ c.isDigit = true) := fun hstart => by
    simp [isXidContinue_of_isDigit_or_start hstart] at hchar
  have hother : ∀ d, Text.isBlank d = false → c ≠ d := fun d hd e => by
    rw [e, hd] at h
    cases h
  rw [not_or] at hstart
  simp [tailLength, hstart, hother '"' (by decide), hother '\'' (by decide),
    hother '\x60' (by decide), hother '/' (by decide)]

/-- White space is a part by itself. -/
theorem partLength_of_isBlank {c : Char} (h : Text.isBlank c = true) (rest : List Char) :
    partLength c rest = 0 := by
  rcases part_cases c rest with hone | ⟨operator, hmem, hpart⟩ | ⟨htail, -⟩
  · exact hone
  · have hheads : ∀ operator ∈ longOperators, operator.toList.head?.any Text.isBlank = false := by
      decide
    have hhead := hheads operator hmem
    rw [← hpart] at hhead
    simp [h] at hhead
  · exact absurd (tailLength_of_isBlank h rest) htail

/-- What is longer than its first character is a word, a number, a literal or a comment. -/
theorem cases_of_tailLength {c : Char} {rest : List Char} (h : tailLength c rest ≠ 0) :
    (Text.isIdentifierStart c = true ∨ c.isDigit = true) ∨ isQuote c = true ∨
      isComment (c :: rest.take (tailLength c rest)) = true := by
  unfold tailLength at h ⊢
  split_ifs at h ⊢ with hstart hdigit hquote hraw hslash
  · exact .inl (.inl hstart)
  · exact .inl (.inr hdigit)
  · exact .inr (.inl (by rcases hquote with rfl | rfl <;> rfl))
  · exact .inr (.inl (by rw [hraw]; rfl))
  · refine .inr (.inr ?_)
    subst hslash
    cases rest with
    | nil => exact absurd rfl h
    | cons d rest =>
      rw [commentLength] at h ⊢
      split_ifs at h ⊢ with hline hblock
      · rw [Nat.add_comm, List.take_succ_cons, hline]
        rfl
      · rw [Nat.add_comm, List.take_succ_cons, hblock]
        rfl
      · exact absurd rfl h
  · exact absurd rfl h

/-- A block comment ends with a slash. -/
theorem getLast?_of_isComment {c : Char} {rest : List Char}
    (h : isComment (c :: rest.take (partLength c rest)) = true)
    (hline : isLineComment (c :: rest.take (partLength c rest)) = false) :
    (c :: rest.take (partLength c rest)).getLast? = some '/' := by
  rw [isComment, hline, Bool.false_or] at h
  rcases part_cases c rest with hone | ⟨operator, hmem, hpart⟩ | ⟨-, hlength, hcloses⟩
  · simp [hone] at h
  · have hnone : ∀ operator ∈ longOperators,
        List.isPrefixOf ['/', '*'] operator.toList = false := by decide
    rw [hpart, hnone operator hmem] at h
    cases h
  · rw [hlength] at h ⊢
    cases htail : rest.take (tailLength c rest) with
    | nil => simp [htail] at h
    | cons d tail =>
      rw [htail] at h hcloses
      simp only [List.isPrefixOf, Bool.and_eq_true, beq_iff_eq] at h
      obtain ⟨rfl, rfl, -⟩ := h
      obtain ⟨init, hinit⟩ : ['*', '/'] <:+ tail := by simpa [closes, isQuote] using hcloses
      exact List.getLast?_eq_some_iff.mpr ⟨'/' :: '*' :: (init ++ ['*']), by simp [← hinit]⟩

/-- **How a token ends**: not with white space; and with a comma, an opening brace or a dot only if
    it is nothing else. -/
theorem getLast_of_isToken {c : Char} {rest : List Char}
    (h : isToken (c :: rest.take (partLength c rest)) = true) :
    ∀ d ∈ (c :: rest.take (partLength c rest)).getLast?, Text.isBlank d = false ∧
      (d ∈ [',', '\x7b'] → c :: rest.take (partLength c rest) = [d]) ∧
      (d = '.' → c :: rest.take (partLength c rest) = ['.'] ∨
        c :: rest.take (partLength c rest) = ['.', '.', '.']) := by
  intro d hd
  simp only [isToken, isBlankPart, List.head?_cons, Option.any_some, Bool.and_eq_true,
    Bool.not_eq_true'] at h
  obtain ⟨hblank, hcomment⟩ := h
  rcases part_cases c rest with hone | ⟨operator, hmem, hpart⟩ | ⟨htail, hlength, hcloses⟩
  · rw [hone, List.take_zero] at hd ⊢
    obtain rfl : c = d := by simpa using hd
    exact ⟨hblank, fun _ => rfl, fun hdot => .inl (by rw [hdot])⟩
  · have hends : ∀ operator ∈ longOperators, (operator.toList.getLast?.all fun d =>
        !Text.isBlank d && !([',', '\x7b'].contains d) &&
          (d != '.' || operator.toList == ['.', '.', '.'])) = true := by decide
    rw [hpart] at hd ⊢
    have hend := hends operator hmem
    rw [Option.mem_def.mp hd, Option.all_some] at hend
    simp only [Bool.and_eq_true, Bool.not_eq_true', Bool.or_eq_true, bne_iff_ne, beq_iff_eq] at hend
    obtain ⟨⟨hblank, hmark⟩, hdots⟩ := hend
    refine ⟨hblank, fun hmem => ?_, fun hdot => .inr (hdots.resolve_left (not_not.mpr hdot))⟩
    rw [List.contains_iff_mem.mpr hmem] at hmark
    cases hmark
  · -- what is longer than an operator ends with none of these characters
    have hmarks : [',', '\x7b', '.'].all (fun d => !Text.isXidContinue d && !isQuote d) = true := by
      decide
    rw [List.all_eq_true] at hmarks
    simp only [Bool.and_eq_true, Bool.not_eq_true'] at hmarks
    have hother (hmark : d ∉ [',', '\x7b', '.']) (hkept : Text.isBlank d = false) :
        Text.isBlank d = false ∧ (d ∈ [',', '\x7b'] → c :: rest.take (partLength c rest) = [d]) ∧
          (d = '.' → c :: rest.take (partLength c rest) = ['.'] ∨
            c :: rest.take (partLength c rest) = ['.', '.', '.']) := by
      simp only [List.mem_cons, List.not_mem_nil, or_false, not_or] at hmark ⊢
      obtain ⟨hcomma, hbrace, hdot⟩ := hmark
      exact ⟨hkept, fun h => absurd h (not_or.mpr ⟨hcomma, hbrace⟩), fun h => absurd h hdot⟩
    rw [hlength] at hd hcomment
    rcases cases_of_tailLength htail with hstart | hquote | hmade
    · have hchar := isXidContinue_getLast hstart d hd
      refine hother (fun hmark => ?_) (isBlank_of_isXidContinue hchar)
      rw [(hmarks d hmark).1] at hchar
      cases hchar
    · have hlast : (rest.take (tailLength c rest)).getLast? = some c := by
        simpa [closes, hquote] using hcloses
      rw [List.getLast?_cons, hlast] at hd
      cases hd
      refine hother (fun hmark => ?_) hblank
      rw [(hmarks c hmark).2] at hquote
      cases hquote
    · rw [hmade] at hcomment
      cases hcomment

end GoStencil
