import GoStencil.SourceFile.Parser
import GoStencil.Proofs.Stream.Items
import GoStencil.Proofs.Stream.Segments

/-!
# Streams are read as they are scanned

The parts of a stream are words, runs of plain text and groups between brackets. They make the
segments that a scan of what they read makes.

* `Nested`: lexemes that are parts of a stream.
* `Covers`: some segments are what a scan finds between two places.
* `covers_part`, `covers_funcBody`, `covers_line`: the segments of the parts of a stream are.
* `exists_body`, `exists_line`: the streams that are made of them.
-/

namespace GoStencil.Grammar

open Pattern

variable {mode : Mode} {pattern : Pattern} {cursor last : Cursor} {nodes : List Node}
  {stops : List Pattern} {textRule : Rule}

/-! ## 1. Runs of plain text -/

/-- Whether some pieces are lexemes that an item of text reads. -/
def ArePlain (stops : List Pattern) (pieces : List (List Char)) : Prop :=
  ∀ piece ∈ pieces, ∃ c tail, piece = c :: tail ∧ IsPlain (streamItem stops) c tail

theorem Rounds.exists_pieces (hstops : IsStops stops)
    (h : Rounds .token (streamItem stops) cursor nodes last) :
    ∃ pieces, ArePlain stops pieces ∧ cursor.Reaches last pieces.flatten ∧
      Scans cursor.rest (pieces.map .plain) last.rest := by
  induction h with
  | done => exact ⟨[], nofun, Cursor.reaches_refl _, .done⟩
  | more h _ ih =>
    obtain ⟨c, tail, hreaches, hends, hplain⟩ := exists_plain hstops h
    obtain ⟨pieces, hpieces, hrest, hscans⟩ := ih
    refine ⟨(c :: tail) :: pieces, ?_, hreaches.trans hrest, ?_⟩
    · intro piece hmem
      rcases List.mem_cons.mp hmem with rfl | hmem
      · exact ⟨c, tail, rfl, hplain⟩
      · exact hpieces piece hmem
    · rw [hreaches.1, List.map_cons, ← hplain.plain]
      exact .more hends hscans

/-- The text of a stream is a run of lexemes that are neither words nor brackets. -/
theorem exists_pieces (hstops : IsStops stops)
    (h : declarations.Reads .token (streamText stops) cursor (some (nodes, last))) :
    ∃ pieces, pieces ≠ [] ∧ ArePlain stops pieces ∧ cursor.Reaches last pieces.flatten ∧
      Scans cursor.rest (pieces.map .plain) last.rest := by
  obtain ⟨_, mid, _, hfirst, hmany, -⟩ := h.of_seq_tight nofun
  have hrounds : Rounds .token (streamItem stops) cursor _ last :=
    .more hfirst (hmany.rounds nofun)
  obtain ⟨pieces, hpieces, hreaches, hscans⟩ := hrounds.exists_pieces hstops
  refine ⟨pieces, ?_, hpieces, hreaches, hscans⟩
  rintro rfl
  obtain ⟨c, tail, hfirst', -⟩ := exists_plain hstops hfirst
  obtain ⟨cs, hmany'⟩ := hmany.reaches
  have hempty := List.append_cancel_right (hreaches.1.symm.trans (hfirst'.trans hmany').1)
  cases hempty

/-! ## 2. What some segments cover -/

/-- Whether some lexemes are the parts of a stream whose text has the given stops. Inside groups,
    text has the stops of bodies. -/
inductive Nested : List Pattern → List Lexeme → Prop where
  | nil {stops : List Pattern} : Nested stops []
  | word {stops : List Pattern} {cs : List Char} {lexemes : List Lexeme}
      (h : Nested stops lexemes) : Nested stops (.word cs :: lexemes)
  | plain {stops : List Pattern} {c : Char} {tail : List Char} {lexemes : List Lexeme}
      (hplain : IsPlain (streamItem stops) c tail) (h : Nested stops lexemes) :
      Nested stops (.plain (c :: tail) :: lexemes)
  | group {stops : List Pattern} {opening closing : Char} {inside lexemes : List Lexeme}
      (hopens : closer? opening = some closing) (hinside : Nested textStops inside)
      (h : Nested stops lexemes) :
      Nested stops (.bracket opening :: (inside ++ .bracket closing :: lexemes))

theorem Nested.append {left right : List Lexeme} (h : Nested stops left)
    (h' : Nested stops right) : Nested stops (left ++ right) := by
  induction h with
  | nil => exact h'
  | word _ ih => exact .word (ih h')
  | plain hplain _ ih => exact .plain hplain (ih h')
  | group hopens hinside _ _ ih =>
    rw [List.cons_append, List.append_assoc, List.cons_append]
    exact .group hopens hinside (ih h')

theorem ArePlain.nested {pieces : List (List Char)} (h : ArePlain stops pieces) :
    Nested stops (pieces.map .plain) := by
  induction pieces with
  | nil => exact .nil
  | cons piece pieces ih =>
    obtain ⟨c, tail, rfl, hplain⟩ := h piece List.mem_cons_self
    exact .plain hplain (ih fun other hmem => h other (List.mem_cons_of_mem _ hmem))

/-- Opening brackets, and what closes them. -/
theorem cases_of_closer? {opening closing : Char} (h : closer? opening = some closing) :
    opening = '(' ∧ closing = ')' ∨ opening = '[' ∧ closing = ']' ∨
      opening = '\x7b' ∧ closing = '\x7d' := by
  unfold closer? at h
  split at h <;> cases h <;> simp

theorem Nested.balanced {lexemes : List Lexeme} (h : Nested stops lexemes) : Balanced lexemes := by
  induction h with
  | nil => exact balanced_nil
  | word _ ih => exact (balanced_word _).append ih
  | plain _ _ ih => exact (balanced_plain _).append ih
  | @group _ opening closing inside lexemes hopens _ _ ihInside ih =>
    have hcloses : closer? closing = none := by
      rcases cases_of_closer? hopens with ⟨-, rfl⟩ | ⟨-, rfl⟩ | ⟨-, rfl⟩ <;> rfl
    have hgroup := (ihInside.group hopens hcloses).append ih
    rwa [List.cons_append, List.append_assoc] at hgroup

/-- Whether some segments are what a scan finds of a text up to some place, once text is joined,
    and the lexemes are the parts of a stream. -/
def Covers (stops : List Pattern) (input : List Char) (segments : List Segment)
    (rest : List Char) : Prop :=
  ∃ lexemes, Scans input lexemes rest ∧ Nested stops lexemes ∧
    ∀ after, segments.foldr Body.joinSegment after =
      (lexemes.map Lexeme.segment).foldr Body.joinSegment after

section Covers

variable {input next rest : List Char} {left right segments : List Segment}

theorem covers_nil (input : List Char) : Covers stops input [] input :=
  ⟨[], .done, .nil, fun _ => rfl⟩

theorem Covers.append (h : Covers stops input left next) (h' : Covers stops next right rest) :
    Covers stops input (left ++ right) rest := by
  obtain ⟨first, hfirst, hnested, hjoin⟩ := h
  obtain ⟨second, hsecond, hnested', hjoin'⟩ := h'
  refine ⟨first ++ second, hfirst.trans hsecond, hnested.append hnested', fun after => ?_⟩
  rw [List.foldr_append, hjoin', hjoin, List.map_append, List.foldr_append]

theorem scans_bracket {c : Char} (h : isBracket c = true) (rest : List Char) :
    Scans (c :: rest) [.bracket c] rest := by
  have hends : Ends c [] rest := tailLength_of_isBracket h rest
  rw [← Lexeme.of_isBracket h []]
  exact .one hends

theorem Covers.group {opening closing : Char}
    (h : Covers textStops input segments (closing :: rest))
    (hopens : closer? opening = some closing) :
    Covers stops (opening :: input) (.text (String.ofList [opening]) ::
      (segments ++ [.text (String.ofList [closing])])) rest := by
  obtain ⟨hopening, hclosing⟩ : isBracket opening = true ∧ isBracket closing = true := by
    rcases cases_of_closer? hopens with ⟨rfl, rfl⟩ | ⟨rfl, rfl⟩ | ⟨rfl, rfl⟩ <;> exact ⟨rfl, rfl⟩
  obtain ⟨lexemes, hscans, hnested, hjoin⟩ := h
  refine ⟨.bracket opening :: (lexemes ++ [.bracket closing]),
    (scans_bracket hopening input).trans (hscans.trans (scans_bracket hclosing rest)),
    .group hopens hnested .nil, fun after => ?_⟩
  simp only [List.foldr_cons, List.foldr_append, List.map_cons, List.map_append, hjoin]
  rfl

/-- **What segments cover is the stream of its own scan**, and balanced. -/
theorem Covers.exists_scan (h : Covers stops input segments rest) :
    ∃ cs, input = cs ++ rest ∧ Body.ofSegments segments = Body.ofScan cs ∧
      isBalanced (String.ofList cs) = true := by
  obtain ⟨lexemes, hscans, hnested, hjoin⟩ := h
  obtain ⟨cs, hinput, hscan⟩ := hscans.exists_scan
  refine ⟨cs, hinput, ?_, ?_⟩
  · rw [Body.ofSegments, hjoin, Body.ofScan, hscan, Body.ofSegments]
  · have hnest := hnested.balanced [] []
    rw [List.append_nil] at hnest
    rw [isBalanced, String.toList_ofList, hscan, hnest]
    rfl

end Covers

/-! ## 3. Parts of a stream -/

/-- Whether a rule reads text with the given stops. -/
def ReadsText (rule : Rule) (stops : List Pattern) : Prop :=
  rule = .bodyText ∧ stops = textStops ∨
    rule = .lineText ∧ stops = lineStops

theorem ReadsText.isStops (h : ReadsText textRule stops) : IsStops stops := by
  rcases h with ⟨-, h⟩ | ⟨-, h⟩
  · exact .inl h
  · exact .inr h

theorem ReadsText.kind_eq (h : ReadsText textRule stops) : ruleKind textRule = .token := by
  rcases h with ⟨rfl, -⟩ | ⟨rfl, -⟩ <;> rfl

theorem ReadsText.body_eq (h : ReadsText textRule stops) :
    ruleBody textRule = streamText stops := by
  rcases h with ⟨rfl, rfl⟩ | ⟨rfl, rfl⟩ <;> rfl

theorem ReadsText.ofNodes_eq (h : ReadsText textRule stops) (children : List Node) :
    Segment.ofNodes [⟨textRule, cursor, last, children⟩] =
      [.text (String.ofList (cursor.upTo last))] := by
  rcases h with ⟨rfl, -⟩ | ⟨rfl, -⟩ <;> simp [Segment.ofNodes, Segment.ofNode, groupBrackets?]

theorem covers_text (htext : ReadsText textRule stops)
    (h : declarations.Reads .tight (.call textRule) cursor (some (nodes, last))) :
    Covers stops cursor.rest (Segment.ofNodes nodes) last.rest := by
  obtain ⟨children, rfl, hbody⟩ := h.of_call nofun
  rw [htext.kind_eq, htext.body_eq] at hbody
  obtain ⟨pieces, hne, hpieces, hreaches, hscans⟩ := exists_pieces htext.isStops hbody
  refine ⟨_, hscans, hpieces.nested, fun after => ?_⟩
  rw [htext.ofNodes_eq, hreaches.upTo, List.map_map]
  exact (Body.foldr_joinSegment_pieces hne after).symm

theorem covers_word
    (h : declarations.Reads .tight (.call .bodyIdent) cursor (some (nodes, last))) :
    Covers stops cursor.rest (Segment.ofNodes nodes) last.rest := by
  obtain ⟨children, rfl, hbody⟩ := h.of_call nofun
  obtain ⟨_, inside, _, hfirst, hmany, -⟩ := hbody.of_seq_tight nofun
  obtain ⟨-, c, hstart, hfirst⟩ := hfirst.of_satisfy
  obtain ⟨cs, hinside, hlength⟩ := steps_identifierChar.exists_run hmany
  have hreaches : cursor.Reaches last (c :: cs) := hfirst.trans hinside
  have hends : Ends c cs last.rest := by
    rw [hinside.1] at hlength
    rw [Ends, tailLength, if_pos hstart, hlength]
  have hscans : Scans cursor.rest [Lexeme.of c cs] last.rest := by
    rw [hreaches.1]
    exact .one hends
  rw [Lexeme.of, if_pos hstart] at hscans
  refine ⟨_, hscans, .word .nil, fun after => ?_⟩
  have hsegments : Segment.ofNodes [⟨.bodyIdent, cursor, last, children⟩] =
      [.ident (String.ofList (cursor.upTo last))] := by
    simp [Segment.ofNodes, Segment.ofNode, groupBrackets?]
  rw [hsegments, hreaches.upTo]
  rfl

theorem ofNodes_append (left right : List Node) :
    Segment.ofNodes (left ++ right) = Segment.ofNodes left ++ Segment.ofNodes right := by
  induction left with
  | nil => simp [Segment.ofNodes]
  | cons node left ih =>
    rw [List.cons_append, Segment.ofNodes, Segment.ofNodes, ih, List.append_assoc]

/-- The rounds of a repetition cover what they read, if each of them does. -/
theorem Rounds.covers {bound : Nat}
    (hpart : ∀ {cursor mid nodes}, cursor.rest.length < bound →
      declarations.Reads .tight pattern cursor (some (nodes, mid)) →
      Covers stops cursor.rest (Segment.ofNodes nodes) mid.rest)
    (h : Rounds .tight pattern cursor nodes last) (hbound : cursor.rest.length < bound) :
    Covers stops cursor.rest (Segment.ofNodes nodes) last.rest := by
  induction h with
  | done => exact covers_nil _
  | more h _ ih =>
    rw [ofNodes_append]
    exact (hpart hbound h).append (ih (by have := h.length_le; omega))

/-- The brackets of a group are those its rule reads. -/
theorem group_of_groupBrackets? {rule : Rule} {opening closing : String}
    (h : groupBrackets? rule = some (opening, closing)) :
    ruleKind rule = .compound ∧ ruleBody rule = Pattern.group opening closing ∧
      ∃ first last, opening = String.ofList [first] ∧ closing = String.ofList [last] ∧
        closer? first = some last := by
  cases rule <;> cases h <;> exact ⟨rfl, rfl, _, _, rfl, rfl, rfl⟩

/-- A group is its brackets, with parts between them. -/
theorem exists_group {rule : Rule} {opening closing : String}
    (h : declarations.Reads mode (.call rule) cursor (some (nodes, last))) (hmode : mode ≠ .token)
    (hrule : groupBrackets? rule = some (opening, closing)) :
    ∃ parts inside stop, cursor.Reaches inside opening.toList ∧
      declarations.Reads .tight (.many (streamPart .bodyText)) inside (some (parts, stop)) ∧
      stop.Reaches last closing.toList ∧
      Segment.ofNodes nodes = .text opening :: (Segment.ofNodes parts ++ [.text closing]) := by
  obtain ⟨children, rfl, hread⟩ := h.of_call hmode
  obtain ⟨hkind, hbody, -⟩ := group_of_groupBrackets? hrule
  rw [hkind, hbody] at hread
  obtain ⟨_, inside, _, hfirst, hread, hchildren⟩ := hread.of_seq_tight nofun
  obtain ⟨parts, stop, _, hmany, hfinal, rfl⟩ := hread.of_seq_tight nofun
  obtain ⟨rfl, hopen⟩ := hfirst.of_literal
  obtain ⟨rfl, hclose⟩ := hfinal.of_literal
  refine ⟨parts, inside, stop, hopen, hmany, hclose, ?_⟩
  simp [Segment.ofNodes, Segment.ofNode, hrule, hchildren]

/-- A group covers what it reads, if the parts in it do. -/
theorem covers_group {rule : Rule} {brackets : String × String}
    (h : declarations.Reads mode (.call rule) cursor (some (nodes, last))) (hmode : mode ≠ .token)
    (hrule : groupBrackets? rule = some brackets)
    (hpart : ∀ {start mid nodes}, start.rest.length < cursor.rest.length →
      declarations.Reads .tight (streamPart .bodyText) start (some (nodes, mid)) →
      Covers textStops start.rest (Segment.ofNodes nodes) mid.rest) :
    Covers stops cursor.rest (Segment.ofNodes nodes) last.rest := by
  obtain ⟨parts, inside, stop, hopen, hmany, hclose, hsegments⟩ := exists_group h hmode hrule
  obtain ⟨-, -, first, final, hfirst, hfinal, hopens⟩ := group_of_groupBrackets? hrule
  rw [hfirst, String.toList_ofList] at hopen
  rw [hfinal, String.toList_ofList] at hclose
  have hlt : inside.rest.length < cursor.rest.length := by
    rw [hopen.1]
    exact Nat.lt_succ_self _
  have hinside := (hmany.rounds nofun).covers hpart hlt
  rw [hclose.1] at hinside
  rw [hsegments, hfirst, hfinal, hopen.1]
  exact hinside.group hopens

/-- **Each part of a stream covers what it reads.** -/
theorem covers_part (htext : ReadsText textRule stops)
    (h : declarations.Reads .tight (streamPart textRule) cursor (some (nodes, last))) :
    Covers stops cursor.rest (Segment.ofNodes nodes) last.rest := by
  induction hn : cursor.rest.length using Nat.strongRecOn
    generalizing cursor last nodes textRule stops with
  | ind n ih =>
    -- the parts of a group stand after its opening bracket
    have hgroup : ∀ {start mid nodes}, start.rest.length < cursor.rest.length →
        declarations.Reads .tight (streamPart .bodyText) start (some (nodes, mid)) →
        Covers textStops start.rest (Segment.ofNodes nodes) mid.rest :=
      fun hlt hpart => ih _ (hn ▸ hlt) (.inl ⟨rfl, rfl⟩) hpart rfl
    obtain ⟨part, hmem, h⟩ := h.of_oneOf (List.cons_ne_nil _ _)
    simp only [List.mem_cons, List.not_mem_nil, or_false] at hmem
    rcases hmem with rfl | rfl | rfl | rfl | rfl
    · exact covers_word h
    · exact covers_group h nofun rfl hgroup
    · exact covers_group h nofun rfl hgroup
    · exact covers_group h nofun rfl hgroup
    · exact covers_text htext h

/-- The body of a function covers what it reads. -/
theorem covers_funcBody
    (h : declarations.Reads mode (.call .funcBody) cursor (some (nodes, last)))
    (hmode : mode ≠ .token) :
    Covers textStops cursor.rest (Segment.ofNodes nodes) last.rest :=
  covers_group h hmode rfl fun _ => covers_part (.inl ⟨rfl, rfl⟩)

/-- What follows the keyword of a declaration of values covers what it reads. -/
theorem covers_line
    (h : declarations.Reads .tight (atLeastOnce (streamPart .lineText)) cursor
      (some (nodes, last))) :
    Covers lineStops cursor.rest (Segment.ofNodes nodes) last.rest := by
  obtain ⟨_, mid, _, hfirst, hmany, rfl⟩ := h.of_seq_tight nofun
  rw [ofNodes_append]
  exact (covers_part (.inr ⟨rfl, rfl⟩) hfirst).append
    ((hmany.rounds nofun).covers (fun _ => covers_part (.inr ⟨rfl, rfl⟩)) (Nat.lt_succ_self _))

/-- **The body of a function is the stream of its own scan**, and balanced. -/
theorem exists_body (h : declarations.Reads .spaced (.call .funcBody) cursor (some (nodes, last))) :
    ∃ cs, cursor.Reaches last cs ∧ Body.ofNodes? nodes = some (Body.ofScan cs) ∧
      isBalanced (String.ofList cs) = true := by
  obtain ⟨cs, hreaches⟩ := h.reaches
  obtain ⟨ds, hds, hscan, hbalanced⟩ := (covers_funcBody h nofun).exists_scan
  obtain rfl : cs = ds := List.append_cancel_right (hreaches.1.symm.trans hds)
  obtain ⟨children, rfl, -⟩ := h.of_call nofun
  rw [Segment.ofNodes, Segment.ofNodes, List.append_nil] at hscan
  exact ⟨cs, hreaches, congrArg some hscan, hbalanced⟩

/-- What follows the keyword of a declaration of values is the stream of its own scan, too. -/
theorem exists_line
    (h : declarations.Reads .tight (atLeastOnce (streamPart .lineText)) cursor
      (some (nodes, last))) :
    ∃ cs, cursor.Reaches last cs ∧ Body.ofSegments (Segment.ofNodes nodes) = Body.ofScan cs := by
  obtain ⟨cs, hreaches⟩ := h.reaches
  obtain ⟨ds, hds, hscan, -⟩ := (covers_line h).exists_scan
  obtain rfl : cs = ds := List.append_cancel_right (hreaches.1.symm.trans hds)
  exact ⟨cs, hreaches, hscan⟩

end GoStencil.Grammar
