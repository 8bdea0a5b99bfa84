import GoStencil.Proofs.Grammar.Words
import GoStencil.Proofs.Stream.Rereading

/-!
# Texts that are cut into given pieces

A text that is written piece by piece is read as these pieces if each of them is a word, a group
between brackets, or plain text, and no word is continued by what comes after it.

* `IsCut`: some pieces are what is read of their text, in a stream whose text has the given stops.
  `IsCut.append`, `IsCut.enclosed` and `IsCut.separated` put them together.
* `isCut_word`, `isCut_symbols`, `isCut_of_takes`: the smallest pieces.
* `areGroups_isGroupLength`: the lengths of arrays that are groups in their brackets.
* `Body.parse?_of_isCut`: between braces, the pieces are the body of a function.
-/

namespace GoStencil

/-! ## 1. Pieces and their text -/

namespace Body

/-- What some segments write. -/
def sourceOf (segments : List Segment) : String :=
  String.join (segments.map Segment.source)

@[simp] theorem sourceOf_nil : sourceOf [] = "" := rfl

@[simp] theorem sourceOf_cons (segment : Segment) (segments : List Segment) :
    sourceOf (segment :: segments) = segment.source ++ sourceOf segments := by
  simp [sourceOf]

@[simp] theorem sourceOf_append (first second : List Segment) :
    sourceOf (first ++ second) = sourceOf first ++ sourceOf second := by
  simp [sourceOf]

/-- Some segments between two brackets. -/
def enclosed (opening closing : Char) (inside : List Segment) : List Segment :=
  .text (String.ofList [opening]) :: (inside ++ [.text (String.ofList [closing])])

/-- Lists of segments with the same text between them. -/
def separated (separator : String) : List (List Segment) → List Segment
  | [] => []
  | [item] => item
  | item :: next :: rest => item ++ .text separator :: separated separator (next :: rest)

theorem sourceOf_separated (separator : String) : ∀ items : List (List Segment),
    sourceOf (separated separator items) = separator.intercalate (items.map sourceOf)
  | [] => rfl
  | [item] => by simp [separated]
  | item :: next :: rest => by
    have ih := sourceOf_separated separator (next :: rest)
    rw [List.map_cons] at ih
    simp [separated, ih, Segment.source, String.append_assoc]

end Body

namespace Grammar

open Pattern Body

variable {stops : List Pattern} {P Q : List Char → Prop} {first second pieces : List Segment}
  {rest : List Char}

/-- Whether some pieces are what is read of their text, where what comes after it has a property. -/
def IsCut (stops : List Pattern) (after : List Char → Prop) (pieces : List Segment) : Prop :=
  ∀ rest, after rest → Covers stops ((sourceOf pieces).toList ++ rest) pieces rest

/-- Whether a word ends before a text. -/
def EndsWord (rest : List Char) : Prop :=
  continues rest = false

/-! ## 2. Cuts put together -/

theorem isCut_nil (after : List Char → Prop) : IsCut stops after [] :=
  fun rest _ => covers_nil rest

theorem IsCut.mono (h : IsCut stops P pieces) (hafter : ∀ rest, Q rest → P rest) :
    IsCut stops Q pieces :=
  fun rest hrest => h rest (hafter rest hrest)

theorem IsCut.append (h : IsCut stops P first) (h' : IsCut stops Q second)
    (hjoin : ∀ rest, Q rest → P ((sourceOf second).toList ++ rest)) :
    IsCut stops Q (first ++ second) := by
  intro rest hrest
  rw [sourceOf_append, String.toList_append, List.append_assoc]
  exact (h _ (hjoin rest hrest)).append (h' rest hrest)

/-- Brackets set off what stands between them. -/
theorem IsCut.enclosed {opening closing : Char} (h : IsCut textStops P pieces)
    (hopens : closer? opening = some closing) (hcloses : ∀ rest, P (closing :: rest)) :
    IsCut stops (fun _ => True) (enclosed opening closing pieces) := by
  intro rest _
  have hinside := h (closing :: rest) (hcloses rest)
  have hchars : (sourceOf (Body.enclosed opening closing pieces)).toList ++ rest =
      opening :: ((sourceOf pieces).toList ++ closing :: rest) := by
    simp [Body.enclosed, Segment.source]
  rw [hchars]
  exact hinside.group hopens

/-- Whether a text does not go on with a word before it. -/
def beginsNoWord (text : String) : Bool :=
  text.toList.head?.any fun c => !Text.isXidContinue c

theorem endsWord_of_text {text : String} (h : beginsNoWord text = true) (pieces : List Segment)
    (rest : List Char) : EndsWord ((sourceOf (.text text :: pieces)).toList ++ rest) := by
  unfold beginsNoWord at h
  cases htext : text.toList with
  | nil => simp [htext] at h
  | cons c cs => simpa [htext, EndsWord, continues, Segment.source] using h

/-- A word may stand before a closing parenthesis. -/
theorem IsCut.parens (h : IsCut textStops EndsWord pieces) :
    IsCut stops (fun _ => True) (Body.enclosed '(' ')' pieces) :=
  h.enclosed rfl fun _ => rfl

theorem IsCut.separated {separator : String}
    (hseparator : IsCut stops (fun _ => True) [.text separator])
    (hends : beginsNoWord separator = true) :
    ∀ {items : List (List Segment)}, (∀ item ∈ items, IsCut stops EndsWord item) →
      IsCut stops EndsWord (separated separator items)
  | [], _ => isCut_nil _
  | [item], h => h item List.mem_cons_self
  | item :: next :: rest, h => by
    have hrest := IsCut.separated hseparator hends
      fun other hmem => h other (List.mem_cons_of_mem item hmem)
    exact (h item List.mem_cons_self).append (hseparator.append hrest fun _ _ => trivial)
      fun after _ => endsWord_of_text hends _ after

/-! ## 3. The smallest pieces -/

/-- A run of characters of a class ends where the next character is not of the class. -/
theorem runLength_oneOfClass_of_forall {p : Char → Bool} {cs : List Char}
    (hcs : ∀ c ∈ cs, p c = true) (hrest : ∀ c ∈ rest.head?, p c = false) :
    runLength (oneOfClass p) (cs ++ rest) = cs.length := by
  induction cs with
  | nil =>
    refine runLength_of_take_eq_zero ?_
    cases rest with
    | nil => rfl
    | cons c rest => simp [Step.take, oneOfClass, hrest c rfl]
  | cons c cs ih =>
    have htake : (oneOfClass p).take (c :: (cs ++ rest)) = 0 + 1 := by
      simp [Step.take, oneOfClass, hcs c]
    rw [List.cons_append, runLength_cons htake, List.drop_zero,
      ih fun d hd => hcs d (List.mem_cons_of_mem c hd), List.length_cons]
    omega

theorem isCut_word {ident : String} {c : Char} {cs : List Char} (hident : ident.toList = c :: cs)
    (hstart : Text.isIdentifierStart c = true) (hcs : ∀ d ∈ cs, Text.isXidContinue d = true) :
    IsCut stops EndsWord [.ident ident] := by
  intro rest hrest
  have hends : Ends c cs rest := by
    rw [Ends, tailLength, if_pos hstart]
    refine runLength_oneOfClass_of_forall hcs fun d hd => ?_
    obtain ⟨after, rfl⟩ := List.head?_eq_some_iff.mp hd
    exact hrest
  have hword : Lexeme.of c cs = .word (c :: cs) := by rw [Lexeme.of, if_pos hstart]
  refine ⟨[.word (c :: cs)], ?_, .word .nil, fun after => ?_⟩
  · simp only [sourceOf_cons, sourceOf_nil, Segment.source, String.append_empty, hident,
      List.cons_append]
    rw [← hword]
    exact .one hends
  · simp [Lexeme.segment, ← hident]

theorem isCut_name {ident : String} (h : isName ident = true) :
    IsCut stops EndsWord [.ident ident] := by
  obtain ⟨c, cs, hident, hstart, hall, -⟩ := isName_iff.mp h
  exact isCut_word hident hstart fun d hd => hall d (List.mem_cons_of_mem c hd)

/-- What an item of text reads is one lexeme. -/
theorem exists_lexeme {text : String} (hstops : IsStops stops)
    (h : Takes .token (streamItem stops) (text.toList ++ rest) rest fun _ => True) :
    ∃ c tail, text.toList = c :: tail ∧ Ends c tail rest ∧ IsPlain (streamItem stops) c tail := by
  obtain ⟨nodes, offset, hread, -⟩ := h 0
  obtain ⟨c, tail, hreaches, hends, hplain⟩ := exists_plain hstops hread
  exact ⟨c, tail, List.append_cancel_right hreaches.1, hends, hplain⟩

/-- What an item of text reads is a piece of its own. -/
theorem isCut_of_takes {text : String} (hstops : IsStops stops)
    (h : ∀ rest, P rest →
      Takes .token (streamItem stops) (text.toList ++ rest) rest fun _ => True) :
    IsCut stops P [.text text] := by
  intro rest hrest
  obtain ⟨c, tail, htext, hends, hplain⟩ := exists_lexeme hstops (h rest hrest)
  refine ⟨[.plain (c :: tail)], ?_, .plain hplain .nil, fun after => ?_⟩
  · simp only [sourceOf_cons, sourceOf_nil, Segment.source, String.append_empty, htext,
      List.cons_append]
    rw [← hplain.plain]
    exact .one hends
  · simp [Lexeme.segment, ← htext]

/-- Whether a character is plain text by itself. -/
def isSymbol (c : Char) : Bool :=
  !Text.isIdentifierStart c && !isBracket c && !c.isDigit && c != '"' && c != '\x60' && c != '\'' &&
    c != '/'

/-- Whether a character can stand in the text of a line. -/
def staysOnLine (c : Char) : Bool :=
  !isLineEnd c && c != ';'

theorem takes_symbol {c : Char} (hstops : IsStops stops) (h : isSymbol c = true)
    (hline : stops = lineStops → staysOnLine c = true) (rest : List Char) :
    Takes .token (streamItem stops) (c :: rest) rest fun _ => True := by
  simp only [isSymbol, Bool.and_eq_true, Bool.not_eq_true', bne_iff_ne, ne_eq] at h
  obtain ⟨⟨⟨⟨⟨⟨hstart, hbracket⟩, hdigit⟩, hquote⟩, hraw⟩, hrune⟩, hslash⟩ := h
  have hother : IsOther c := ⟨hstart, hbracket, hdigit, hquote, hraw, hrune⟩
  have hcomment : c = '/' → commentLength rest = 0 := fun hc => absurd hc hslash
  refine takes_oneOf (hother.refuses_textItems hcomment)
    (takes_anyCharBut skipsIn_token (refuses_oneOf ?_))
  rcases hstops with rfl | rfl
  · exact hother.refuses_textStops hcomment
  · obtain ⟨hend, hsemicolon⟩ := Bool.and_eq_true_iff.mp (hline rfl)
    intro stop hmem
    rcases List.mem_cons.mp hmem with rfl | hmem
    · exact refuses_newline_of (Bool.not_eq_true' _ ▸ hend) rest
    · rcases List.mem_cons.mp hmem with rfl | hmem
      · exact refuses_oneChar rfl (bne_iff_ne.mp hsemicolon)
      · exact hother.refuses_textStops hcomment stop hmem

/-- Whether a text is plain, character by character. -/
def isSymbols (text : String) : Bool :=
  !text.toList.isEmpty && text.toList.all isSymbol

/-- A text of such characters is one piece, also on a line if they can stand there. -/
theorem isCut_symbols {text : String} (hstops : IsStops stops) (h : isSymbols text = true)
    (hline : stops = lineStops → text.toList.all staysOnLine = true) :
    IsCut stops (fun _ => True) [.text text] := by
  intro rest _
  simp only [isSymbols, Bool.and_eq_true, Bool.not_eq_true', List.isEmpty_eq_false_iff] at h
  obtain ⟨hne, hall⟩ := h
  have hscans : ∀ cs : List Char, cs.all isSymbol = true →
      (stops = lineStops → cs.all staysOnLine = true) →
      Nested stops (cs.map fun c => Lexeme.plain [c]) ∧
        Scans (cs ++ rest) (cs.map fun c => .plain [c]) rest := by
    intro cs hcs hlines
    induction cs with
    | nil => exact ⟨.nil, .done⟩
    | cons c cs ih =>
      simp only [List.all_cons, Bool.and_eq_true] at hcs hlines
      obtain ⟨hnested, hscans⟩ := ih hcs.2 fun hstop => (hlines hstop).2
      have hread : Takes .token (streamItem stops) ((String.ofList [c]).toList ++ (cs ++ rest))
          (cs ++ rest) fun _ => True := by
        rw [String.toList_ofList]
        exact takes_symbol hstops hcs.1 (fun hstop => (hlines hstop).1) (cs ++ rest)
      obtain ⟨d, tail, hchar, hends, hplain⟩ := exists_lexeme hstops hread
      obtain ⟨rfl, rfl⟩ := List.cons.inj (String.toList_ofList.symm.trans hchar)
      refine ⟨.plain hplain hnested, ?_⟩
      rw [List.map_cons, ← hplain.plain]
      exact .more hends hscans
  obtain ⟨hnested, hscans⟩ := hscans text.toList hall hline
  refine ⟨_, ?_, hnested, fun after => ?_⟩
  · simpa [Segment.source] using hscans
  · have hpieces : text.toList.map ([·]) ≠ [] := by simpa using hne
    have hflat : (text.toList.map ([·])).flatten = text.toList := by simp [← List.flatMap_def]
    have hjoin := foldr_joinSegment_pieces hpieces after
    rw [hflat, String.ofList_toList] at hjoin
    simpa [Lexeme.segment, Function.comp_def] using hjoin.symm

/-- A text of such characters may stand before the pieces. -/
theorem IsCut.text_cons {text : String} (hstops : IsStops stops) (htext : isSymbols text = true)
    (hline : text.toList.all staysOnLine = true) (h : IsCut stops Q pieces) :
    IsCut stops Q (.text text :: pieces) :=
  (isCut_symbols hstops htext fun _ => hline).append h fun _ _ => trivial

theorem IsCut.word_cons {ident text : String} (hident : IsCut stops EndsWord [.ident ident])
    (htext : beginsNoWord text = true) (h : IsCut stops Q (.text text :: pieces)) :
    IsCut stops Q (.ident ident :: .text text :: pieces) :=
  hident.append h fun rest _ => endsWord_of_text htext pieces rest

/-! ## 4. Lengths -/

/-- Whether the bracket that closes the length of an array comes next. -/
def ClosesLength (rest : List Char) : Prop :=
  ∃ after, rest = ']' :: after

/-- The pieces that are scanned of the length of an array. -/
def lengthPieces (length : String) : List Segment :=
  (scan length.toList).map Lexeme.segment

theorem sourceOf_lengthPieces (length : String) : sourceOf (lengthPieces length) = length := by
  rw [sourceOf, lengthPieces, join_source_segment, chars_scan, String.ofList_toList]

/-- Whether a length is a group of a stream in its brackets. -/
def isGroupLength (length : String) : Bool :=
  (declarations.parse .bracketGroup ("[" ++ length ++ "]")).any (·.stop.rest.isEmpty)

/-- Whether the lengths of a kind are cut into their pieces, where a bracket closes them. -/
def AreGroups (p : String → Bool) : Prop :=
  ∀ length, p length = true → IsCut textStops ClosesLength (lengthPieces length)

theorem isXidContinue_of_isDigit {c : Char} (h : c.isDigit = true) :
    Text.isXidContinue c = true ∧ Text.isBlank c = false ∧ c ≠ ':' := by
  have hdigits : ∀ n < 58, 48 ≤ n → Text.isXidContinue (Char.ofNat n) = true ∧
      Text.isBlank (Char.ofNat n) = false ∧ Char.ofNat n ≠ ':' := by decide
  obtain ⟨hlower, hupper⟩ := Bool.and_eq_true_iff.mp h
  have hrange := hdigits c.toNat (Nat.lt_succ_of_le (of_decide_eq_true hupper))
    (of_decide_eq_true hlower)
  rwa [Char.ofNat_toNat] at hrange

/-- A number is read as one item where a bracket closes it. -/
theorem takes_number {length : String} (hne : length.toList ≠ [])
    (h : length.toList.all Char.isDigit = true) (after : List Char) :
    Takes .token (streamItem textStops) (length.toList ++ ']' :: after) (']' :: after)
      fun _ => True := by
  cases htext : length.toList with
  | nil => exact absurd htext hne
  | cons c cs =>
    rw [htext, List.all_cons, Bool.and_eq_true, List.all_eq_true] at h
    obtain ⟨hc, hcs⟩ := h
    obtain ⟨-, -, hquote, hraw, hrune, hslash⟩ := of_isDigit hc
    have hmore : ∀ d ∈ cs, ∀ rest, Takes .token (oneOf [identifierChar, .seq (text ".") digit])
        (d :: rest) rest fun _ => True := fun d hd rest =>
      ((takes_satisfy (isXidContinue_of_isDigit (hcs d hd)).1).imp fun _ _ => trivial).alt
    have hstop : Refuses .token (oneOf [identifierChar, .seq (text ".") digit]) (']' :: after) :=
      (refuses_identifierChar .token rfl).alt (Refuses.seq (refuses_oneChar rfl (by decide)))
    have hnumber : Takes .token (.call .numberLit) (c :: (cs ++ ']' :: after)) (']' :: after)
        (· = []) := Takes.call_token
      ((takes_satisfy hc).seq (skipsIn_token _) (takes_many_chars hmore hstop))
    have hitem : Takes .token (oneOf ((textItems.take 3 ++ [lineComment, blockComment]) ++
        .call .numberLit :: [anyCharBut (oneOf textStops)])) (c :: (cs ++ ']' :: after))
        (']' :: after) (· = []) := takes_oneOf (fun other hother => ?_) hnumber
    · exact hitem.imp fun _ _ => trivial
    rcases List.mem_append.mp hother with hother | hother
    · exact refuses_literals hquote hraw hrune _ other hother
    · simp only [List.mem_cons, List.not_mem_nil, or_false] at hother
      rcases hother with rfl | rfl <;>
      exact Refuses.seq (refuses_text_of_head rfl fun after heq => hslash (List.cons.inj heq).1)

theorem lengthPieces_number {length : String} (hne : length.toList ≠ [])
    (h : length.toList.all Char.isDigit = true) : lengthPieces length = [.text length] := by
  obtain ⟨c, tail, htext, hends, hplain⟩ := exists_lexeme (.inl rfl) (takes_number hne h [])
  have hnone : Ends c tail ([] ++ [']']) := hends
  have hscan := scan_cons_append hnone.of_append
  rw [List.append_nil, scan.eq_1, hplain.plain] at hscan
  rw [lengthPieces, htext, hscan, List.map_singleton, Lexeme.segment, ← htext, String.ofList_toList]

/-- A number is one piece where a bracket closes it. -/
theorem isCut_number {length : String} (hne : length.toList ≠ [])
    (h : length.toList.all Char.isDigit = true) :
    IsCut textStops ClosesLength (lengthPieces length) := by
  rw [lengthPieces_number hne h]
  refine isCut_of_takes (.inl rfl) fun rest hrest => ?_
  obtain ⟨after, rfl⟩ := hrest
  exact takes_number hne h after

/-- **A length that is a group in its brackets is cut into the pieces scanned of it.** -/
theorem areGroups_isGroupLength : AreGroups isGroupLength := by
  rintro length h _ ⟨after, rfl⟩
  cases hparse : declarations.parse .bracketGroup ("[" ++ length ++ "]") with
  | none => simp [isGroupLength, hparse] at h
  | some node =>
    obtain ⟨last, hread⟩ := parse_eq_some_iff.mp hparse
    obtain ⟨children, hnode, -⟩ := hread.of_call nofun
    obtain rfl := List.singleton_inj.mp hnode
    have hlast : last.rest = [] := by simpa [isGroupLength, hparse] using h
    have hbrackets : groupBrackets? .bracketGroup =
        some (String.ofList ['['], String.ofList [']']) := rfl
    obtain ⟨ms, lexemes, hreaches, hnested, hscans⟩ := exists_nested hread nofun hbrackets
    have hlength : length.toList = ms := by
      have hchars := hreaches.1
      rw [hlast] at hchars
      simpa [Cursor.start] using hchars
    obtain ⟨_, hms, hscan⟩ := hscans.exists_scan
    obtain rfl := List.append_cancel_right hms
    rw [sourceOf_lengthPieces, lengthPieces, hlength, hscan]
    exact ⟨lexemes, hscans.resume fun _ => .same nofun, hnested, fun _ => rfl⟩

end Grammar

/-! ## 5. Bodies -/

/-- The stream that the grammar of function bodies reads from the start of a text. -/
def Body.parse? (text : String) : Option Body :=
  (Grammar.declarations.parse .funcBody text).map fun node => .ofSegments (Segment.ofNode node)

open Grammar Body in
/-- **Pieces between braces are the body of a function.** -/
theorem Body.parse?_of_isCut {pieces : List Segment} (h : IsCut Pattern.textStops EndsWord pieces) :
    Body.parse? ("\x7b" ++ sourceOf pieces ++ "\x7d") =
      some (ofSegments (enclosed '\x7b' '\x7d' pieces)) := by
  have hcovers := h ['\x7d'] rfl
  have ⟨lexemes, hscans, hnested, _⟩ := hcovers
  have hparts := readsParts_of_nested hnested (.inl ⟨rfl, rfl⟩) hscans (.inr (.inr (.inl rfl)))
  have hbody : Takes .spaced (.call .funcBody) ('\x7b' :: ((sourceOf pieces).toList ++ ['\x7d'])) []
      fun _ => True := takes_group nofun rfl hparts.parts
  obtain ⟨nodes, offset, hread, -⟩ := hbody 0
  obtain ⟨node, rfl⟩ : ∃ node, nodes = [node] := by
    obtain ⟨children, rfl, -⟩ := hread.of_call nofun
    exact ⟨_, rfl⟩
  obtain ⟨cs, hreaches, hscan, -⟩ := exists_body hread
  have hgroup : Covers Pattern.textStops ('\x7b' :: ((sourceOf pieces).toList ++ ['\x7d']))
      (enclosed '\x7b' '\x7d' pieces) [] := hcovers.group rfl
  obtain ⟨ds, hds, hstream, -⟩ := hgroup.exists_scan
  obtain rfl : cs = ds := List.append_cancel_right (hreaches.1.symm.trans hds)
  have hparse : declarations.parse .funcBody ("\x7b" ++ sourceOf pieces ++ "\x7d") = some node := by
    refine parse_eq_some_iff.mpr ⟨⟨offset, []⟩, ?_⟩
    simpa [Cursor.start] using hread
  rw [parse?, hparse, hstream]
  exact hscan

end GoStencil
