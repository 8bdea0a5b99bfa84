import GoStencil.Proofs.Stream.Items
import GoStencil.Proofs.TypeExpr.Reread

/-!
# What tokens of types are

Names, tags and array lengths are kept as they stand in the text. What their rules read are names,
literals and lengths.

* `isName_of_reads`: an identifier is a name, and no reserved word.
* `exists_stringLit`, `exists_rawStringLit`: a literal closes where its quote stands again.
* `isTag_of_reads`: a tag is a literal.
* `isLength_of_reads`: a length is some characters, with neither a bracket nor a line end.
-/

namespace GoStencil.Grammar

open Pattern

variable {mode : Mode} {cursor last : Cursor} {nodes : List Node} {node : Node} {bound : Nat}

/-! ## 1. Names -/

theorem exists_word
    (h : declarations.Reads .token (.many identifierChar) cursor (some (nodes, last))) :
    ∃ cs, cursor.Reaches last cs ∧ (∀ c ∈ cs, Text.isXidContinue c = true) ∧
      continues last.rest = false := by
  have hrounds := h.rounds nofun
  obtain ⟨cs, hreaches, hcs⟩ := hrounds.exists_chars fun hround => by
    obtain ⟨-, c, hc, hround⟩ := hround.of_satisfy
    exact ⟨c, hround, hc⟩
  refine ⟨cs, hreaches, hcs, ?_⟩
  cases hrest : last.rest with
  | nil => rfl
  | cons c rest => exact hrounds.fails.satisfy_fails c rest hrest

/-- **An identifier is a name.** -/
theorem isName_of_reads (h : IsReadBy mode .identifier bound node) (hmode : mode ≠ .token) :
    isName node.text = true := by
  obtain ⟨children, hnode, hbody⟩ := h.exists_children hmode
  obtain ⟨_, _, _, hnot, hword, -⟩ := hbody.of_seq_tight nofun
  obtain ⟨-, rfl, hreserved⟩ := hnot.of_notAhead
  obtain ⟨_, _, _, hfirst, hmany, -⟩ := hword.of_seq_tight nofun
  obtain ⟨-, c, hstart, hfirst⟩ := hfirst.of_satisfy
  obtain ⟨cs, hrest, hcs, hend⟩ := exists_word hmany
  have hreaches := hfirst.trans hrest
  have htext : node.text.toList = c :: cs := by
    rw [Node.text, Node.chars, hreaches.upTo, String.toList_ofList]
    rfl
  refine isName_iff.mpr ⟨c, cs, htext, hstart, ?_, fun hmem => ?_⟩
  · exact List.forall_mem_cons.mpr ⟨Text.isXidContinue_of_isIdentifierStart hstart, hcs⟩
  · have htakes := takes_reserved hmem hend
    rw [htext] at htakes
    have hchars : node.start.rest = c :: cs ++ node.stop.rest := hreaches.1
    rw [← hchars] at htakes
    exact htakes.not_fails hreserved

/-! ## 2. Literals -/

theorem isLineEnd_of_fails {c : Char} {rest : List Char} (hrest : cursor.rest = c :: rest)
    (h : declarations.Reads .token newline cursor none) : isLineEnd c = false := by
  refine Bool.eq_false_iff.mpr fun hc => ?_
  obtain ⟨after, hread⟩ := takes_newline_of hc rest
  rw [← hrest] at hread
  exact hread.not_fails h

theorem ne_of_fails {c : Char} {rest : List Char} {s : String} {d : Char} (hs : s.toList = [d])
    (hrest : cursor.rest = c :: rest)
    (h : declarations.Reads .token (text s) cursor none) : c ≠ d := by
  rintro rfl
  exact h.literal_fails ⟨rest, by rw [hs, hrest]; rfl⟩

theorem closesString_cons {c : Char} {rest : List Char} (hquote : c ≠ '"') (hescape : c ≠ '\\')
    (hline : isLineEnd c = false) : closesString (c :: rest) = closesString rest := by
  obtain ⟨hfeed, hreturn⟩ := Bool.or_eq_false_iff.mp hline
  have hfeed : c ≠ '\n' := beq_eq_false_iff_ne.mp hfeed
  have hreturn : c ≠ '\r' := beq_eq_false_iff_ne.mp hreturn
  rw [closesString]
  · simp [hquote, hescape, hfeed, hreturn]
  · rintro rfl
    exact absurd rfl hquote
  · rintro _ _ rfl
    exact absurd rfl hescape

/-- What is read between the quotes of a literal does not end before its quote. -/
theorem Rounds.closesString
    (h : Rounds .token (quotedPiece "\"") cursor nodes last) (hlast : last.rest ≠ []) :
    ∃ cs, cursor.Reaches last cs ∧
      ∀ rest, GoStencil.closesString (cs ++ rest) = GoStencil.closesString rest := by
  induction h with
  | done => exact ⟨[], Cursor.reaches_refl _, fun _ => rfl⟩
  | @more cursor mid last _ _ h hrounds ih =>
    obtain ⟨cs, hrest, hcs⟩ := ih hlast
    rcases h.of_alt with h | ⟨hplain, h⟩
    · obtain ⟨_, _, _, hslash, hchar, -⟩ := h.of_seq_tight nofun
      obtain ⟨-, c, -, hchar⟩ := hchar.of_satisfy
      refine ⟨'\\' :: c :: cs, (hslash.of_literal.2.trans hchar).trans hrest, fun rest => ?_⟩
      rw [List.cons_append, List.cons_append, GoStencil.closesString, hcs]
    · obtain ⟨hfails, c, hreaches⟩ := h.of_anyCharBut
      have hchars : cursor.rest = c :: mid.rest := hreaches.1
      obtain ⟨hquote, hline⟩ := hfails.alt_fails
      have hquote := ne_of_fails rfl hchars hquote
      have hline := isLineEnd_of_fails hchars hline
      have hescape : c ≠ '\\' := by
        rintro rfl
        -- the backslash would take the next character along
        cases hmid : mid.rest with
        | nil =>
          have hwhole := hrest.1
          rw [hmid] at hwhole
          exact hlast (List.append_eq_nil_iff.mp hwhole.symm).2
        | cons d rest =>
          rw [hmid] at hchars
          have htakes : Takes .token (.seq (text "\\") anyChar) ('\\' :: d :: rest) rest _ :=
            (takes_text .token "\\" (d :: rest)).seq (skipsIn_token _) (takes_satisfy rfl)
          rw [← hchars] at htakes
          exact htakes.not_fails hplain
      refine ⟨c :: cs, hreaches.trans hrest, fun rest => ?_⟩
      rw [List.cons_append, closesString_cons hquote hescape hline, hcs]

theorem exists_stringLit
    (h : declarations.Reads .token (.call .stringLit) cursor (some (nodes, last))) :
    ∃ cs, cursor.Reaches last ('"' :: (cs ++ ['"'])) ∧
      GoStencil.closesString (cs ++ ['"']) = true := by
  obtain ⟨-, _, h⟩ := h.of_call_token
  obtain ⟨_, _, _, hopen, h, -⟩ := h.of_seq_tight nofun
  obtain ⟨_, stop, _, hmany, hclose, -⟩ := h.of_seq_tight nofun
  have hclose := hclose.of_literal.2
  have hne : stop.rest ≠ [] := by
    rw [hclose.1]
    exact List.cons_ne_nil _ _
  obtain ⟨cs, hcs, hcloses⟩ := (hmany.rounds nofun).closesString hne
  exact ⟨cs, hopen.of_literal.2.trans (hcs.trans hclose), hcloses ['"']⟩

theorem closesRawString_append {cs : List Char} (h : ∀ c ∈ cs, c ≠ '\x60') :
    closesRawString (cs ++ ['\x60']) = true := by
  induction cs with
  | nil => rfl
  | cons c cs ih =>
    rw [List.cons_append, closesRawString,
      ih fun d hd => h d (List.mem_cons_of_mem _ hd), Bool.and_true]
    · exact bne_iff_ne.mpr (h c List.mem_cons_self)
    · rintro rfl hnil
      exact List.append_ne_nil_of_right_ne_nil cs (List.cons_ne_nil _ _) hnil

theorem exists_rawStringLit
    (h : declarations.Reads .token (.call .rawStringLit) cursor (some (nodes, last))) :
    ∃ cs, cursor.Reaches last ('\x60' :: (cs ++ ['\x60'])) ∧
      closesRawString (cs ++ ['\x60']) = true := by
  obtain ⟨-, _, h⟩ := h.of_call_token
  obtain ⟨_, _, _, hopen, h, -⟩ := h.of_seq_tight nofun
  obtain ⟨_, stop, _, hmany, hclose, -⟩ := h.of_seq_tight nofun
  obtain ⟨cs, hcs, hraw⟩ := (hmany.rounds nofun).exists_chars fun hround => by
    obtain ⟨hfails, c, hreaches⟩ := hround.of_anyCharBut
    exact ⟨c, hreaches, ne_of_fails rfl hreaches.1 hfails⟩
  exact ⟨cs, hopen.of_literal.2.trans (hcs.trans hclose.of_literal.2),
    closesRawString_append hraw⟩

/-- The characters of a tag, or of the path of an import. -/
theorem exists_literal (h : declarations.Reads .token
      (oneOf [.call .stringLit, .call .rawStringLit]) cursor (some (nodes, last))) :
    ∃ cs, cursor.Reaches last ('"' :: (cs ++ ['"'])) ∧
        GoStencil.closesString (cs ++ ['"']) = true ∨
      cursor.Reaches last ('\x60' :: (cs ++ ['\x60'])) ∧
        closesRawString (cs ++ ['\x60']) = true := by
  rcases h.of_alt with h | ⟨-, h⟩
  · obtain ⟨cs, h⟩ := exists_stringLit h
    exact ⟨cs, .inl h⟩
  · obtain ⟨cs, h⟩ := exists_rawStringLit h
    exact ⟨cs, .inr h⟩

/-- **A tag is a literal.** -/
theorem isTag_of_reads (h : IsReadBy mode .fieldTag bound node) (hmode : mode ≠ .token) :
    isTag node.text = true := by
  obtain ⟨children, hnode, hbody⟩ := h.exists_children hmode
  have hchars : ∀ {cs : List Char}, node.start.Reaches node.stop cs → node.text.toList = cs := by
    intro cs hreaches
    rw [Node.text, Node.chars, hreaches.upTo, String.toList_ofList]
  obtain ⟨cs, ⟨hreaches, hcloses⟩ | ⟨hreaches, hcloses⟩⟩ := exists_literal hbody
  · rw [isTag, hchars hreaches]
    exact hcloses
  · rw [isTag, hchars hreaches]
    exact hcloses

/-! ## 3. Lengths -/

theorem mem_of_mem_dropBlankEnd {c : Char} : ∀ {cs : List Char},
    c ∈ Text.dropBlankEnd cs → c ∈ cs
  | [], h => h
  | d :: cs, h => by
    unfold Text.dropBlankEnd at h
    split at h
    · split at h
      · cases h
      · exact List.mem_cons.mpr (.inl (List.mem_singleton.mp h))
    · rcases List.mem_cons.mp h with rfl | h
      · exact List.mem_cons_self
      · exact List.mem_cons_of_mem d (mem_of_mem_dropBlankEnd h)

theorem dropBlankEnd_dropBlankEnd : ∀ cs : List Char,
    Text.dropBlankEnd (Text.dropBlankEnd cs) = Text.dropBlankEnd cs
  | [] => rfl
  | c :: cs => by
    have ih := dropBlankEnd_dropBlankEnd cs
    rw [Text.dropBlankEnd]
    split
    · split
      · rfl
      · rename_i hblank
        rw [Text.dropBlankEnd]
        exact if_neg hblank
    · rename_i kept hkept
      rw [Text.dropBlankEnd, ih]
      split
      · rename_i hnil
        exact absurd hnil hkept
      · rfl

/-- What is left between the blank ends of a text does not begin with a blank. -/
theorem dropBlank_dropBlankEnd (cs : List Char) :
    Text.dropBlank (Text.dropBlankEnd (Text.dropBlank cs)) =
      Text.dropBlankEnd (Text.dropBlank cs) := by
  have hhead := List.head?_dropWhile_not Text.isBlank cs
  have hkept : Text.dropBlank cs = cs.dropWhile Text.isBlank := rfl
  rw [hkept]
  cases hdrop : cs.dropWhile Text.isBlank with
  | nil => rfl
  | cons c rest =>
    rw [hdrop] at hhead
    have hblank : ¬ Text.isBlank c = true := Bool.eq_false_iff.mp hhead
    have hkept : ∃ kept, Text.dropBlankEnd (c :: rest) = c :: kept := by
      unfold Text.dropBlankEnd
      split
      · exact ⟨[], if_neg hblank⟩
      · exact ⟨_, rfl⟩
    obtain ⟨kept, hkept⟩ := hkept
    rw [hkept]
    exact List.dropWhile_cons_of_neg hblank

theorem trim_trim (s : String) : Text.trim (Text.trim s) = Text.trim s := by
  rw [Text.trim, Text.trim, String.toList_ofList, dropBlank_dropBlankEnd,
    dropBlankEnd_dropBlankEnd]

/-- Whether a text is the length of an array as it is kept: on one line, before the closing bracket
    and without the blanks around it. -/
structure IsLength (length : String) : Prop where
  trimmed : Text.trim length = length
  chars : ∀ c ∈ length.toList, c ≠ ']' ∧ isLineEnd c = false

/-- **An array length is some text up to the bracket**, without its blank ends. -/
theorem isLength_of_reads (h : IsReadBy mode .arrayLen bound node) (hmode : mode ≠ .token) :
    IsLength (Text.trim node.text) := by
  obtain ⟨children, hnode, hbody⟩ := h.exists_children hmode
  obtain ⟨_, mid, _, hfirst, hmany, -⟩ := hbody.of_seq_tight nofun
  have hrounds : Rounds .token (anyCharBut (oneOf [text "]", newline])) node.start _ node.stop :=
    .more hfirst (hmany.rounds nofun)
  obtain ⟨cs, hcs, hchars⟩ : ∃ cs, node.start.Reaches node.stop cs ∧
      ∀ c ∈ cs, c ≠ ']' ∧ isLineEnd c = false := hrounds.exists_chars fun hround => by
    obtain ⟨hfails, c, hreaches⟩ := hround.of_anyCharBut
    obtain ⟨hbracket, hline⟩ := hfails.alt_fails
    exact ⟨c, hreaches, ne_of_fails rfl hreaches.1 hbracket, isLineEnd_of_fails hreaches.1 hline⟩
  have htext : node.text.toList = cs := by
    rw [Node.text, Node.chars, hcs.upTo, String.toList_ofList]
  refine ⟨trim_trim _, fun c hc => hchars c ?_⟩
  rw [Text.trim, String.toList_ofList, htext] at hc
  exact (List.dropWhile_sublist _).subset (mem_of_mem_dropBlankEnd hc)

end GoStencil.Grammar
