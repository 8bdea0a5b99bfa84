import GoStencil.Proofs.Stream.Reading
import GoStencil.Proofs.Stream.Resume

/-!
# Streams are read again from what they were read from

What comes after a stream does not matter, as long as it does not change how the stream is scanned:
the parts of the stream are the parts of the same characters elsewhere.

* `refuses_item`, `EndsParts.refuses_part`: where text and the parts of a stream stop.
* `readsParts_of_nested`: nested lexemes are read as parts.
* `takes_funcBody_of_nested`, `takes_line_of_nested`: nested lexemes are a function body between
  braces, and a line of values before a new line.
* `exists_block`, `exists_values`: so bodies and lines that have been read are read again.
-/

namespace GoStencil.Grammar

open Pattern

variable {mode : Mode} {cursor last : Cursor} {nodes : List Node} {input mid rest : List Char}
  {stops : List Pattern} {textRule : Rule} {c : Char}

/-! ## 1. Where text stops -/

theorem takes_bracket (h : isBracket c = true) (rest : List Char) :
    Takes .token bracket (c :: rest) rest fun _ => True := by
  rcases cases_of_isBracket h with rfl | rfl | rfl | rfl | rfl | rfl <;>
  exact fun offset => ⟨[], _, reads_of_run gapNeverFails 10 rfl, trivial⟩

/-- Whether plain text stops at a character: at a word, at a bracket, or at the end of its line. -/
def StopsAt (stops : List Pattern) (c : Char) : Prop :=
  Text.isIdentifierStart c = true ∨ isBracket c = true ∨ stops = lineStops ∧ isLineEnd c = true

theorem StopsAt.ne (h : StopsAt stops c) {d : Char} (hstart : Text.isIdentifierStart d = false)
    (hbracket : isBracket d = false) (hline : isLineEnd d = false) : c ≠ d := by
  rintro rfl
  rcases h with h | h | ⟨-, h⟩
  · exact Bool.false_ne_true (hstart.symm.trans h)
  · exact Bool.false_ne_true (hbracket.symm.trans h)
  · exact Bool.false_ne_true (hline.symm.trans h)

theorem StopsAt.isDigit_eq (h : StopsAt stops c) : c.isDigit = false := by
  refine Bool.eq_false_iff.mpr fun hdigit => ?_
  obtain ⟨hstart, hbracket, -⟩ := of_isDigit hdigit
  refine h.ne hstart hbracket (Bool.eq_false_iff.mpr fun hline => ?_) rfl
  rcases Bool.or_eq_true_iff.mp hline with hc | hc <;> cases eq_of_beq hc <;> cases hdigit

theorem takes_textStops (h : Text.isIdentifierStart c = true ∨ isBracket c = true)
    (rest : List Char) : Takes .token (oneOf textStops) (c :: rest) rest fun _ => True := by
  cases hbracket : isBracket c with
  | true => exact (takes_bracket hbracket rest).alt
  | false =>
    have hstart := h.resolve_right (Bool.eq_false_iff.mp hbracket)
    have hword : Takes .token identifierStart (c :: rest) rest fun _ => True :=
      (takes_satisfy hstart).imp fun _ _ => trivial
    exact (refuses_bracket hbracket rest).alt_takes hword.alt

theorem StopsAt.takes (hstops : IsStops stops) (h : StopsAt stops c) (rest : List Char) :
    ∃ after, Takes .token (oneOf stops) (c :: rest) after fun _ => True := by
  rcases hstops with rfl | rfl
  · refine ⟨rest, takes_textStops ?_ rest⟩
    rcases h with h | h | ⟨hstops, -⟩
    · exact .inl h
    · exact .inr h
    · cases hstops
  · cases hline : isLineEnd c with
    | true =>
      obtain ⟨after, hread⟩ := takes_newline_of hline rest
      exact ⟨after, hread.alt⟩
    | false =>
      have hsemicolon : c ≠ ';' := h.ne (by decide) (by decide) (by decide)
      have hword : Text.isIdentifierStart c = true ∨ isBracket c = true := by
        rcases h with h | h | ⟨-, h⟩
        · exact .inl h
        · exact .inr h
        · exact absurd h (Bool.eq_false_iff.mp hline)
      exact ⟨rest, (refuses_newline_of hline rest).alt_takes
        ((refuses_oneChar rfl hsemicolon).alt_takes (takes_textStops hword rest))⟩

/-- No item of text is read where text stops. -/
theorem refuses_item (hstops : IsStops stops) (h : StopsAt stops c) (rest : List Char) :
    Refuses .token (streamItem stops) (c :: rest) := by
  have hslash : c ≠ '/' := h.ne (by decide) (by decide) (by decide)
  have hcomments : Refuses .token (text "//") (c :: rest) ∧
      Refuses .token (text "/*") (c :: rest) :=
    refuses_comment_of fun hc => absurd hc hslash
  obtain ⟨after, hread⟩ := h.takes hstops rest
  refine refuses_oneOf fun pattern hmem => ?_
  rcases List.mem_append.mp hmem with hmem | hmem
  · rw [← List.take_append_drop 3 textItems] at hmem
    rcases List.mem_append.mp hmem with hmem | hmem
    · exact refuses_literals (h.ne (by decide) (by decide) (by decide))
        (h.ne (by decide) (by decide) (by decide)) (h.ne (by decide) (by decide) (by decide)) rest
        pattern hmem
    · have hmem : pattern ∈ [lineComment, blockComment, call .numberLit] := hmem
      simp only [List.mem_cons, List.not_mem_nil, or_false] at hmem
      rcases hmem with rfl | rfl | rfl
      · exact Refuses.seq hcomments.1
      · exact Refuses.seq hcomments.2
      · exact Refuses.call (Refuses.seq (refuses_satisfy fun d after heq => by
          cases heq; exact h.isDigit_eq))
  · cases List.mem_singleton.mp hmem
    exact refuses_anyCharBut hread

/-! ## 2. Parts, one after the other -/

/-- Whether the parts of a stream end before a character. -/
def EndsParts (stops : List Pattern) (c : Char) : Prop :=
  c = ')' ∨ c = ']' ∨ c = '\x7d' ∨ stops = lineStops ∧ c = '\n'

theorem EndsParts.stopsAt (h : EndsParts stops c) : StopsAt stops c := by
  rcases h with rfl | rfl | rfl | ⟨hstops, rfl⟩
  · exact .inr (.inl rfl)
  · exact .inr (.inl rfl)
  · exact .inr (.inl rfl)
  · exact .inr (.inr ⟨hstops, rfl⟩)

theorem refuses_bodyIdent (h : Text.isIdentifierStart c = false) (rest : List Char) :
    Refuses .tight (.call .bodyIdent) (c :: rest) :=
  Refuses.call (Refuses.seq (refuses_satisfy fun d after heq => by cases heq; exact h))

theorem refuses_group {rule : Rule} {opening closing : Char}
    (hrule : groupBrackets? rule = some (String.ofList [opening], String.ofList [closing]))
    (h : c ≠ opening) (rest : List Char) : Refuses .tight (.call rule) (c :: rest) := by
  obtain ⟨hkind, hbody, -⟩ := group_of_groupBrackets? hrule
  refine Refuses.call ?_
  rw [hkind, hbody]
  exact Refuses.seq (refuses_oneChar String.toList_ofList h)

/-- Text is no part where neither a word nor a bracket stands before it. -/
theorem refuses_before_text (hstart : Text.isIdentifierStart c = false)
    (hopening : closer? c = none) (rest : List Char) :
    ∀ part ∈ [call .bodyIdent, call .parenGroup, call .braceGroup, call .bracketGroup],
      Refuses .tight part (c :: rest) := by
  have hne : ∀ d, closer? d ≠ none → c ≠ d := by
    rintro d hd rfl
    exact hd hopening
  intro part hmem
  simp only [List.mem_cons, List.not_mem_nil, or_false] at hmem
  rcases hmem with rfl | rfl | rfl | rfl
  · exact refuses_bodyIdent hstart rest
  · exact refuses_group rfl (hne '(' nofun) rest
  · exact refuses_group rfl (hne '\x7b' nofun) rest
  · exact refuses_group rfl (hne '[' nofun) rest

theorem ReadsText.refuses (h : ReadsText textRule stops)
    (hitem : Refuses .token (streamItem stops) input) :
    Refuses .tight (.call textRule) input := by
  refine Refuses.call ?_
  rw [h.kind_eq, h.body_eq]
  exact Refuses.seq hitem

theorem EndsParts.refuses_part (htext : ReadsText textRule stops) (h : EndsParts stops c)
    (rest : List Char) : Refuses .tight (streamPart textRule) (c :: rest) := by
  have hstart : Text.isIdentifierStart c = false := by
    rcases h with rfl | rfl | rfl | ⟨-, rfl⟩ <;> decide
  have hopening : closer? c = none := by
    rcases h with rfl | rfl | rfl | ⟨-, rfl⟩ <;> rfl
  refine refuses_oneOf fun part hmem => ?_
  have hparts : part ∈ [call .bodyIdent, call .parenGroup, call .braceGroup, call .bracketGroup] ++
      [call textRule] := hmem
  rcases List.mem_append.mp hparts with hmem | hmem
  · exact refuses_before_text hstart hopening rest part hmem
  · cases List.mem_singleton.mp hmem
    exact htext.refuses (refuses_item htext.isStops h.stopsAt rest)

theorem takes_rule {rule : Rule} {inner : Mode} {pattern : Pattern} {P : List Node → Prop}
    (hmode : mode ≠ .token) (hkind : (ruleKind rule).inside mode = inner)
    (hbody : ruleBody rule = pattern) (h : Takes inner pattern input rest P) :
    Takes mode (.call rule) input rest fun _ => True := by
  subst hkind hbody
  exact (Takes.call hmode h).imp fun _ _ => trivial

theorem takes_word {tail : List Char} (hstart : Text.isIdentifierStart c = true)
    (hends : Ends c tail rest) :
    Takes .tight (streamPart textRule) (c :: (tail ++ rest)) rest fun _ => True := by
  have hchars := steps_identifierChar.takes_many (tail ++ rest)
  rw [Ends, tailLength, if_pos hstart] at hends
  rw [hends, List.drop_left] at hchars
  have hfirst : Takes .token identifierStart (c :: (tail ++ rest)) (tail ++ rest) (· = []) :=
    takes_satisfy hstart
  have hcall : Takes .tight (.call .bodyIdent) (c :: (tail ++ rest)) rest fun _ => True :=
    takes_rule Mode.noConfusion rfl rfl (hfirst.seq (skipsIn_token _) hchars)
  exact hcall.alt

theorem takes_group {rule : Rule} {opening closing : Char} (hmode : mode ≠ .token)
    (hrule : groupBrackets? rule = some (String.ofList [opening], String.ofList [closing]))
    (h : Takes .tight (.many (streamPart .bodyText)) input (closing :: rest) fun _ => True) :
    Takes mode (.call rule) (opening :: input) rest fun _ => True := by
  obtain ⟨hkind, hbody, -⟩ := group_of_groupBrackets? hrule
  have hopens : Takes .tight (text (String.ofList [opening])) (opening :: input) input
      (· = []) := by
    have hread := takes_text .tight (String.ofList [opening]) input
    rwa [String.toList_ofList] at hread
  have hcloses : Takes .tight (text (String.ofList [closing])) (closing :: rest) rest (· = []) := by
    have hread := takes_text .tight (String.ofList [closing]) rest
    rwa [String.toList_ofList] at hread
  have hinside : (ruleKind rule).inside mode = .tight := by
    rw [hkind]
    rfl
  exact takes_rule hmode hinside hbody
    (hopens.seq (skipsIn_tight _) (h.seq (skipsIn_tight _) hcloses))

/-- A group is a part of a stream. -/
theorem takes_group_part {opening closing : Char} (hopens : closer? opening = some closing)
    (h : Takes .tight (.many (streamPart .bodyText)) input (closing :: rest) fun _ => True) :
    Takes .tight (streamPart textRule) (opening :: input) rest fun _ => True := by
  have hword : Text.isIdentifierStart opening = false := by
    rcases cases_of_closer? hopens with ⟨rfl, -⟩ | ⟨rfl, -⟩ | ⟨rfl, -⟩ <;> decide
  have hfirst := refuses_bodyIdent hword input
  rcases cases_of_closer? hopens with ⟨rfl, rfl⟩ | ⟨rfl, rfl⟩ | ⟨rfl, rfl⟩
  · have hgroup : Takes .tight (.call .parenGroup) ('(' :: input) rest fun _ => True :=
      takes_group nofun rfl h
    exact hfirst.alt_takes hgroup.alt
  · have hgroup : Takes .tight (.call .bracketGroup) ('[' :: input) rest fun _ => True :=
      takes_group nofun rfl h
    have hparen : Refuses .tight (.call .parenGroup) ('[' :: input) :=
      refuses_group rfl (by decide) input
    have hbrace : Refuses .tight (.call .braceGroup) ('[' :: input) :=
      refuses_group rfl (by decide) input
    exact hfirst.alt_takes (hparen.alt_takes (hbrace.alt_takes hgroup.alt))
  · have hgroup : Takes .tight (.call .braceGroup) ('\x7b' :: input) rest fun _ => True :=
      takes_group nofun rfl h
    have hparen : Refuses .tight (.call .parenGroup) ('\x7b' :: input) :=
      refuses_group rfl (by decide) input
    exact hfirst.alt_takes (hparen.alt_takes hgroup.alt)

theorem takes_text_part (htext : ReadsText textRule stops) {P Q : List Node → Prop}
    (hstart : Text.isIdentifierStart c = false) (hopening : closer? c = none)
    (hitem : Takes .token (streamItem stops) (c :: input) mid P)
    (hmany : Takes .token (.many (streamItem stops)) mid rest Q) :
    Takes .tight (streamPart textRule) (c :: input) rest fun _ => True := by
  have hinside : (ruleKind textRule).inside .tight = .token := by
    rw [htext.kind_eq]
    rfl
  have hcall : Takes .tight (.call textRule) (c :: input) rest fun _ => True :=
    takes_rule nofun hinside htext.body_eq (hitem.seq (skipsIn_token _) hmany)
  exact takes_oneOf (refuses_before_text hstart hopening input) hcall

/-! ## 3. Nested lexemes -/

theorem IsPlain.starts {item : Pattern} {tail : List Char} (h : IsPlain item c tail) :
    Text.isIdentifierStart c = false ∧ isBracket c = false := by
  have hplain := h.plain
  unfold Lexeme.of at hplain
  split_ifs at hplain with hstart hbracket
  exact ⟨Bool.eq_false_iff.mpr hstart, Bool.eq_false_iff.mpr hbracket⟩

theorem closer?_eq_none (h : isBracket c = false) : closer? c = none := by
  cases hc : closer? c with
  | none => rfl
  | some closing =>
    rcases cases_of_closer? hc with ⟨rfl, -⟩ | ⟨rfl, -⟩ | ⟨rfl, -⟩ <;> cases h

/-- What is scanned as a bracket first goes on after that bracket. -/
theorem exists_bracket {lexemes : List Lexeme} (h : Scans input (.bracket c :: lexemes) rest) :
    ∃ mid, isBracket c = true ∧ input = c :: mid ∧ Scans mid lexemes rest := by
  obtain ⟨d, tail, mid, rfl, hlexeme, hends, hrest⟩ := h.of_cons
  obtain ⟨hbracket, rfl⟩ := Lexeme.eq_of_bracket hlexeme
  rw [Ends, tailLength_of_isBracket hbracket] at hends
  obtain rfl : tail = [] := List.eq_nil_of_length_eq_zero hends.symm
  exact ⟨mid, hbracket, rfl, hrest⟩

/-- Whether parts are read up to some place, also when an item before them goes on with those that
    are plain. -/
structure ReadsParts (stops : List Pattern) (textRule : Rule) (input rest : List Char) : Prop where
  parts : Takes .tight (.many (streamPart textRule)) input rest fun _ => True
  goesOn : ∃ mid, Takes .token (.many (streamItem stops)) input mid (fun _ => True) ∧
    Takes .tight (.many (streamPart textRule)) mid rest fun _ => True

theorem ReadsParts.of_refuses (hitem : Refuses .token (streamItem stops) input)
    (h : Takes .tight (.many (streamPart textRule)) input rest fun _ => True) :
    ReadsParts stops textRule input rest :=
  ⟨h, input, hitem.many.imp fun _ _ => trivial, h⟩

/-- **Nested lexemes are read as parts of a stream.** -/
theorem readsParts_of_nested {lexemes : List Lexeme} (hnested : Nested stops lexemes)
    (htext : ReadsText textRule stops) (hscans : Scans input lexemes (c :: rest))
    (hends : EndsParts stops c) : ReadsParts stops textRule input (c :: rest) := by
  induction hnested generalizing input textRule c rest with
  | nil =>
    cases hscans
    exact .of_refuses (refuses_item htext.isStops hends.stopsAt rest)
      ((hends.refuses_part htext rest).many.imp fun _ _ => trivial)
  | word _ ih =>
    obtain ⟨d, tail, mid, rfl, hlexeme, hend, hrest⟩ := hscans.of_cons
    obtain ⟨hstart, -⟩ := Lexeme.eq_of_word hlexeme
    have hpart : Takes .tight (streamPart textRule) (d :: (tail ++ mid)) mid fun _ => True :=
      takes_word hstart hend
    exact .of_refuses (refuses_item htext.isStops (.inl hstart) _)
      (hpart.many_cons nofun (ih htext hrest hends).parts)
  | @plain _ d tail _ hplain _ ih =>
    obtain ⟨_, _, mid, rfl, hlexeme, hend, hrest⟩ := hscans.of_cons
    obtain ⟨rfl, rfl⟩ := List.cons.inj (Lexeme.eq_of_plain hlexeme)
    obtain ⟨-, after, hitems, hparts⟩ := ih htext hrest hends
    obtain ⟨hstart, hbracket⟩ := hplain.starts
    have hitem := hplain.takes hend
    have hpart : Takes .tight (streamPart textRule) (d :: (tail ++ mid)) after fun _ => True :=
      takes_text_part htext hstart (closer?_eq_none hbracket) hitem hitems
    exact ⟨hpart.many_cons nofun hparts, after, hitem.many_cons nofun hitems, hparts⟩
  | @group _ opening closing _ _ hopens _ _ ihInside ih =>
    obtain ⟨mid, hbracket, rfl, hgroup⟩ := exists_bracket hscans
    obtain ⟨stop, hinside, hclosed⟩ := hgroup.of_append
    obtain ⟨after, -, rfl, hrest⟩ := exists_bracket hclosed
    have hcloses : EndsParts textStops closing := by
      rcases cases_of_closer? hopens with ⟨-, rfl⟩ | ⟨-, rfl⟩ | ⟨-, rfl⟩ <;> simp [EndsParts]
    have hread := ihInside (.inl ⟨rfl, rfl⟩) hinside hcloses
    have hpart : Takes .tight (streamPart textRule) (opening :: mid) after fun _ => True :=
      takes_group_part hopens hread.parts
    exact .of_refuses (refuses_item htext.isStops (.inr (.inl hbracket)) _)
      (hpart.many_cons nofun (ih htext hrest hends).parts)

/-! ## 4. Streams -/

/-- What every reading of a text makes is made when the text is read. -/
theorem Takes.of_reads {pattern : Pattern} {P Q : List Node → Prop}
    (h : Takes mode pattern input rest P)
    (hQ : ∀ {offset offset' nodes}, declarations.Reads mode pattern ⟨offset, input⟩
      (some (nodes, ⟨offset', rest⟩)) → Q nodes) : Takes mode pattern input rest Q := by
  intro offset
  obtain ⟨nodes, offset', hread, -⟩ := h offset
  exact ⟨nodes, offset', hread, hQ hread⟩

/-- Between the brackets of a group stand nested lexemes. -/
theorem exists_nested {rule : Rule} {opening closing : Char}
    (h : declarations.Reads mode (.call rule) cursor (some (nodes, last))) (hmode : mode ≠ .token)
    (hrule : groupBrackets? rule = some (String.ofList [opening], String.ofList [closing])) :
    ∃ ms lexemes, cursor.Reaches last (opening :: (ms ++ [closing])) ∧ Nested textStops lexemes ∧
      Scans (ms ++ closing :: last.rest) lexemes (closing :: last.rest) := by
  obtain ⟨parts, inside, stop, hopen, hmany, hclose, -⟩ := exists_group h hmode hrule
  rw [String.toList_ofList] at hopen hclose
  obtain ⟨ms, hinside⟩ := hmany.reaches
  obtain ⟨lexemes, hscans, hnested, -⟩ := (hmany.rounds nofun).covers
    (fun _ => covers_part (.inl ⟨rfl, rfl⟩)) (Nat.lt_succ_self _)
  have hrest : stop.rest = closing :: last.rest := hclose.1
  rw [hinside.1, hrest] at hscans
  exact ⟨ms, lexemes, hopen.trans (hinside.trans hclose), hnested, hscans⟩

/-- **Nested lexemes between braces are the body of a function.** -/
theorem takes_funcBody_of_nested {ms tail : List Char} {lexemes : List Lexeme}
    (hnested : Nested textStops lexemes)
    (hscans : Scans (ms ++ '\x7d' :: tail) lexemes ('\x7d' :: tail)) :
    Takes .spaced (.call .funcBody) ('\x7b' :: (ms ++ '\x7d' :: tail)) tail fun nodes =>
      Body.ofNodes? nodes = some (Body.ofScan ('\x7b' :: (ms ++ ['\x7d']))) := by
  have hread := readsParts_of_nested hnested (.inl ⟨rfl, rfl⟩) hscans (.inr (.inr (.inl rfl)))
  have hbody : Takes .spaced (.call .funcBody) ('\x7b' :: (ms ++ '\x7d' :: tail)) tail
      fun _ => True := takes_group nofun rfl hread.parts
  refine hbody.of_reads fun hagain => ?_
  obtain ⟨ds, hds, hscan, -⟩ := exists_body hagain
  obtain rfl : '\x7b' :: (ms ++ ['\x7d']) = ds :=
    List.append_cancel_right (by rw [List.cons_append, List.append_assoc]; exact hds.1)
  exact hscan

/-- **The body of a function is nested lexemes between braces, whatever follows it.** -/
theorem exists_block
    (h : declarations.Reads .spaced (.call .funcBody) cursor (some (nodes, last))) :
    ∃ ms lexemes, cursor.Reaches last ('\x7b' :: (ms ++ ['\x7d'])) ∧ Nested textStops lexemes ∧
      ∀ tail, Scans (ms ++ '\x7d' :: tail) lexemes ('\x7d' :: tail) := by
  have hbraces : groupBrackets? .funcBody =
      some (String.ofList ['\x7b'], String.ofList ['\x7d']) := rfl
  obtain ⟨ms, lexemes, hreaches, hnested, hscans⟩ := exists_nested h nofun hbraces
  exact ⟨ms, lexemes, hreaches, hnested, fun tail => hscans.resume fun _ => .same nofun⟩

/-- Braces are scanned as such, with what is between them. -/
theorem scan_block {ms : List Char} {lexemes : List Lexeme}
    (h : Scans (ms ++ ['\x7d']) lexemes ['\x7d']) :
    scan ('\x7b' :: (ms ++ ['\x7d'])) = .bracket '\x7b' :: (lexemes ++ [.bracket '\x7d']) := by
  have hwhole : Scans ('\x7b' :: (ms ++ ['\x7d'])) _ [] :=
    (scans_bracket rfl _).trans (h.trans (scans_bracket rfl []))
  obtain ⟨cs, hcs, hscan⟩ := hwhole.exists_scan
  rw [hcs, List.append_nil]
  exact hscan

/-- A repetition that reads something reads a pattern at least once. -/
theorem Takes.many_once {pattern : Pattern} {P : List Node → Prop}
    (h : Takes mode (.many pattern) input rest P) (hmode : mode ≠ .spaced) (hne : input ≠ rest) :
    Takes mode (atLeastOnce pattern) input rest P := by
  intro offset
  obtain ⟨nodes, offset', hread, hP⟩ := h offset
  refine ⟨nodes, offset', ?_, hP⟩
  cases hread with
  | manyNone _ => exact absurd rfl hne
  | manyLast hfirst hgap hstop =>
    obtain rfl := Reads.eq_of_gap hmode hgap
    have hread : declarations.Reads mode (atLeastOnce pattern) ⟨offset, input⟩ _ :=
      .seq hfirst hgap (.manyNone hstop)
    rwa [Option.map_some, List.append_nil] at hread
  | manyMore hfirst hgap hnext hrest => exact .seq hfirst hgap hrest

/-- **Nested lexemes before a new line are what follows the keyword of a declaration of values.** -/
theorem takes_line_of_nested {ds tail : List Char} {lexemes : List Lexeme}
    (hnested : Nested lineStops lexemes)
    (hscans : Scans (ds ++ '\n' :: tail) lexemes ('\n' :: tail)) (hne : ds ≠ []) :
    Takes .tight (atLeastOnce (streamPart .lineText)) (ds ++ '\n' :: tail) ('\n' :: tail)
      fun nodes => Body.ofSegments (Segment.ofNodes nodes) = Body.ofScan ds := by
  have hread := readsParts_of_nested hnested (.inr ⟨rfl, rfl⟩) hscans
    (.inr (.inr (.inr ⟨rfl, rfl⟩)))
  have hmore : ds ++ '\n' :: tail ≠ '\n' :: tail := fun hds =>
    hne (List.append_cancel_right (hds.trans (List.nil_append _).symm))
  refine (hread.parts.many_once nofun hmore).of_reads fun hagain => ?_
  obtain ⟨es, hes, hscan⟩ := exists_line hagain
  obtain rfl : ds = es := List.append_cancel_right hes.1
  exact hscan

/-- **What follows the keyword of a declaration of values is nested lexemes**, also before a new
    line. -/
theorem exists_values {ds : List Char}
    (h : declarations.Reads .tight (atLeastOnce (streamPart .lineText)) cursor (some (nodes, last)))
    (hreaches : cursor.Reaches last ds) :
    ds ≠ [] ∧ ∃ lexemes, Nested lineStops lexemes ∧
      ∀ tail, Scans (ds ++ '\n' :: tail) lexemes ('\n' :: tail) := by
  have hlt := h.length_lt rfl
  obtain ⟨lexemes, hscans, hnested, -⟩ := covers_line h
  rw [hreaches.1] at hscans hlt
  refine ⟨?_, lexemes, hnested, hscans.resume_line⟩
  rintro rfl
  exact Nat.lt_irrefl _ hlt

end GoStencil.Grammar
