import GoStencil.Proofs.Grammar.Inversion
import GoStencil.Proofs.Grammar.Phrases
import GoStencil.Proofs.Stream.Scan

/-!
# Items of a stream are lexemes

The grammar reads literals, numbers and comments by rules that call each other; a scan only looks at
one character after the other. Both go equally far.

* `Steps`: a pattern that reads exactly what a step takes. `Steps.takes_many` is about repetition.
* `IsPlain`: characters that are one lexeme, and that a pattern reads wherever this lexeme ends.
* `exists_plain`: what an item of the text of a stream reads is such a lexeme.
-/

namespace GoStencil.Grammar

open Pattern

variable {mode : Mode} {pattern item : Pattern} {step : Step} {input mid rest : List Char}
  {cursor last : Cursor} {nodes : List Node}

/-! ## 1. Patterns and steps -/

/-- A text is read in one way. -/
theorem Takes.rest_eq {P : List Node → Prop} (h : Takes mode pattern cursor.rest rest P)
    (hread : declarations.Reads mode pattern cursor (some (nodes, last))) : last.rest = rest := by
  obtain ⟨_, offset, hreads, -⟩ := h cursor.offset
  cases hreads.unique hread
  rfl

theorem Takes.not_fails {P : List Node → Prop} (h : Takes mode pattern cursor.rest rest P) :
    ¬ declarations.Reads mode pattern cursor none := by
  intro hfails
  obtain ⟨_, offset, hreads, -⟩ := h cursor.offset
  cases hreads.unique hfails

/-- A round before a repetition makes it longer. -/
theorem Takes.many_cons {P Q : List Node → Prop} (hround : Takes mode pattern input mid P)
    (hmode : mode ≠ .spaced) (hrest : Takes mode (.many pattern) mid rest Q) :
    Takes mode (.many pattern) input rest fun _ => True := by
  intro offset
  obtain ⟨left, offset₁, hleft, -⟩ := hround offset
  obtain ⟨right, offset₂, hright, -⟩ := hrest offset₁
  have hgap : declarations.Reads .token (declarations.gapIn mode) ⟨offset₁, mid⟩
      (some ([], ⟨offset₁, mid⟩)) := by
    cases mode with
    | spaced => exact absurd rfl hmode
    | tight | token => exact .literal .token [] ⟨offset₁, mid⟩
  cases hright.rounds hmode with
  | done hstop => exact ⟨_, _, .manyLast hleft hgap hstop, trivial⟩
  | more hnext _ => exact ⟨_, _, .manyMore hleft hgap hnext hright, trivial⟩

/-- Whether a pattern, inside a token, reads exactly what a step takes. -/
structure Steps (pattern : Pattern) (step : Step) : Prop where
  fits : step.Fits
  refuses : ∀ {input}, step.take input = 0 → Refuses .token pattern input
  takes : ∀ {input more}, step.take input = more + 1 →
    Takes .token pattern input (input.drop (more + 1)) fun _ => True

/-- **A repetition goes as far as the steps do.** -/
theorem Steps.takes_many (h : Steps pattern step) (input : List Char) :
    Takes .token (.many pattern) input (input.drop (runLength step input)) fun _ => True := by
  fun_induction runLength step input with
  | case1 => exact (h.refuses rfl).many.imp fun _ _ => trivial
  | case2 c rest hzero =>
    have hstop : step.take (c :: rest) = 0 := hzero
    exact (h.refuses hstop).many.imp fun _ _ => trivial
  | case3 c rest more htake ih =>
    have hround : step.take (c :: rest) = more + 1 := htake
    have hdrop : (c :: rest).drop (more + 1 + runLength step (rest.drop more)) =
        (rest.drop more).drop (runLength step (rest.drop more)) := by
      rw [Nat.add_right_comm, List.drop_succ_cons, List.drop_drop]
    rw [hdrop]
    exact (h.takes hround).many_cons Mode.noConfusion ih

theorem Steps.exists_run (h : Steps pattern step)
    (hread : declarations.Reads .token (.many pattern) cursor (some (nodes, last))) :
    ∃ cs, cursor.Reaches last cs ∧ runLength step cursor.rest = cs.length := by
  obtain ⟨cs, hreaches⟩ := hread.reaches
  refine ⟨cs, hreaches, ?_⟩
  have hlast := congrArg List.length ((h.takes_many cursor.rest).rest_eq hread)
  have hwhole := congrArg List.length hreaches.1
  have hle := h.fits.runLength_le cursor.rest
  rw [List.length_drop] at hlast
  rw [List.length_append] at hwhole
  omega

theorem steps_oneOfClass {p : Char → Bool} (hnil : Refuses .token pattern [])
    (hstop : ∀ c rest, p c = false → Refuses .token pattern (c :: rest))
    (hgo : ∀ c rest, p c = true → Takes .token pattern (c :: rest) rest fun _ => True) :
    Steps pattern (oneOfClass p) where
  fits := fits_oneOfClass p
  refuses {input} h := by
    cases input with
    | nil => exact hnil
    | cons c rest =>
      cases hc : p c with
      | false => exact hstop c rest hc
      | true =>
        rw [Step.take_cons, oneOfClass, if_pos hc] at h
        cases h
  takes {input more} h := by
    cases input with
    | nil => cases h
    | cons c rest =>
      rw [Step.take_cons, oneOfClass] at h
      split_ifs at h with hc
      cases h
      exact hgo c rest hc

theorem steps_identifierChar : Steps identifierChar (oneOfClass Text.isXidContinue) := by
  refine steps_oneOfClass (refuses_satisfy nofun) (fun c rest hc => refuses_satisfy ?_)
    fun c rest hc => (takes_satisfy hc).imp fun _ _ => trivial
  rintro d after h
  cases h
  exact hc

theorem steps_anyCharBut {p : Char → Bool} (hnil : Refuses .token pattern [])
    (hstop : ∀ c rest, p c = false → ∃ after, Takes .token pattern (c :: rest) after fun _ => True)
    (hgo : ∀ c rest, p c = true → Refuses .token pattern (c :: rest)) :
    Steps (anyCharBut pattern) (oneOfClass p) :=
  steps_oneOfClass (refuses_anyCharBut_nil hnil)
    (fun c rest hc => (hstop c rest hc).elim fun _ h => refuses_anyCharBut h)
    fun c rest hc => takes_anyCharBut skipsIn_token (hgo c rest hc)

theorem steps_raw : Steps (anyCharBut (text "\x60")) (oneOfClass (· != '\x60')) := by
  refine steps_anyCharBut (refuses_text_of_head rfl nofun) (fun c rest hc => ⟨rest, ?_⟩)
    fun c rest hc => refuses_oneChar rfl (bne_iff_ne.mp hc)
  cases bne_eq_false_iff_eq.mp hc
  exact (takes_text .token "\x60" rest).imp fun _ _ => trivial

theorem refuses_newline_of {c : Char} (h : isLineEnd c = false) (rest : List Char) :
    Refuses .token newline (c :: rest) := by
  obtain ⟨hfeed, hreturn⟩ := Bool.or_eq_false_iff.mp h
  have hreturn : ∀ after, c :: rest ≠ '\r' :: after := by
    rintro after heq
    cases heq
    cases hreturn
  refine (refuses_oneChar rfl (beq_eq_false_iff_ne.mp hfeed)).alt (Refuses.alt ?_ ?_) <;>
  exact refuses_text_of_head rfl hreturn

theorem takes_newline_of {c : Char} (h : isLineEnd c = true) (rest : List Char) :
    ∃ after, Takes .token newline (c :: rest) after fun _ => True := by
  rcases Bool.or_eq_true_iff.mp h with hc | hc
  · cases eq_of_beq hc
    exact ⟨rest, ((takes_text .token "\n" rest).alt).imp fun _ _ => trivial⟩
  · cases eq_of_beq hc
    have hfeed : Refuses .token (text "\n") ('\r' :: rest) := refuses_oneChar rfl (by decide)
    by_cases hboth : ∃ after, rest = '\n' :: after
    · obtain ⟨after, rfl⟩ := hboth
      exact ⟨after, (hfeed.alt_takes (takes_text .token "\r\n" after).alt).imp fun _ _ => trivial⟩
    · have hpair : Refuses .token (text "\r\n") ('\r' :: rest) := by
        refine refuses_text fun after heq => hboth ⟨after, ?_⟩
        exact (List.cons.inj heq).2
      exact ⟨rest, (hfeed.alt_takes (hpair.alt_takes (takes_text .token "\r" rest))).imp
        fun _ _ => trivial⟩

theorem refuses_newline_nil : Refuses .token newline [] :=
  Refuses.alt (refuses_text_of_head rfl nofun)
    (Refuses.alt (refuses_text_of_head rfl nofun) (refuses_text_of_head rfl nofun))

theorem steps_line : Steps (anyCharBut newline) (oneOfClass (!isLineEnd ·)) :=
  steps_anyCharBut refuses_newline_nil
    (fun _ rest hc => takes_newline_of (Bool.not_eq_false' _ ▸ hc) rest)
    fun _ rest hc => refuses_newline_of (Bool.not_eq_true' _ ▸ hc) rest

theorem steps_block : Steps (anyCharBut (text "*/")) blockStep where
  fits := fits_blockStep
  refuses {input} h := by
    cases input with
    | nil => exact refuses_anyCharBut_nil (refuses_text_of_head rfl nofun)
    | cons c rest =>
      rw [Step.take_cons, blockStep] at h
      split_ifs at h with hend
      obtain ⟨rfl, hnext⟩ := hend
      obtain ⟨after, rfl⟩ := List.head?_eq_some_iff.mp hnext
      exact refuses_anyCharBut (takes_text .token "*/" after)
  takes {input more} h := by
    cases input with
    | nil => cases h
    | cons c rest =>
      rw [Step.take_cons, blockStep] at h
      split_ifs at h with hgo
      cases h
      refine takes_anyCharBut skipsIn_token (refuses_text fun after heq => hgo ?_)
      cases heq
      exact ⟨rfl, rfl⟩

theorem steps_number : Steps (oneOf [identifierChar, .seq (text ".") digit]) numberStep where
  fits := fits_numberStep
  refuses {input} h := by
    cases input with
    | nil =>
      exact Refuses.alt (refuses_satisfy nofun) (Refuses.seq (refuses_text_of_head rfl nofun))
    | cons c rest =>
      rw [Step.take_cons, numberStep] at h
      split_ifs at h with hpoint hc
      refine Refuses.alt (refuses_satisfy ?_) ?_
      · rintro d after heq
        cases heq
        exact Bool.eq_false_iff.mpr hc
      · by_cases hdot : c = '.'
        · cases hdot
          refine Takes.seq_refuses (takes_text .token "." rest) (skipsIn_token rest)
            (refuses_satisfy ?_)
          rintro d after rfl
          exact Bool.eq_false_iff.mpr fun hd => hpoint ⟨rfl, hd⟩
        · exact Refuses.seq (refuses_oneChar rfl hdot)
  takes {input more} h := by
    cases input with
    | nil => cases h
    | cons c rest =>
      rw [Step.take_cons, numberStep] at h
      split_ifs at h with hpoint hc
      · obtain ⟨rfl, hnext⟩ := hpoint
        cases h
        obtain ⟨d, hhead, hd⟩ := (Option.any_eq_true _ _).mp hnext
        obtain ⟨after, rfl⟩ := List.head?_eq_some_iff.mp hhead
        have hletter : Refuses .token identifierChar ('.' :: d :: after) := by
          refine refuses_satisfy ?_
          rintro e more heq
          cases heq
          decide
        exact (hletter.alt_takes (Takes.seq (takes_text .token "." _) (skipsIn_token _)
          (takes_satisfy hd))).imp fun _ _ => trivial
      · cases h
        exact (takes_satisfy hc).alt.imp fun _ _ => trivial

/-- What is read inside a literal, up to the given quote. -/
def quotedPiece (quote : String) : Pattern :=
  oneOf [.seq (text "\\") anyChar, anyCharBut (oneOf [text quote, newline])]

theorem steps_quoted {quote : String} {q : Char} (hquote : quote.toList = [q]) (hq : q ≠ '\\') :
    Steps (quotedPiece quote) (quotedStep q) where
  fits := fits_quotedStep q
  refuses {input} h := by
    cases input with
    | nil =>
      have hstop : Refuses .token (oneOf [text quote, newline]) [] :=
        Refuses.alt (refuses_text_of_head hquote fun _ => (List.cons_ne_nil _ _).symm)
          refuses_newline_nil
      exact Refuses.alt
        (Refuses.seq (refuses_text_of_head rfl fun _ => (List.cons_ne_nil _ _).symm))
        (refuses_anyCharBut_nil hstop)
    | cons c rest =>
      rw [Step.take_cons, quotedStep] at h
      split_ifs at h with hescape hstop
      have hslash : c ≠ '\\' := by
        rintro rfl
        rcases hstop with hc | hc
        · exact hq hc.symm
        · cases hc
      refine Refuses.alt (Refuses.seq (refuses_oneChar rfl hslash)) ?_
      rcases hstop with rfl | hline
      · have hread := takes_text .token quote rest
        rw [hquote] at hread
        exact refuses_anyCharBut hread.alt
      · by_cases hc : c = q
        · cases hc
          have hread := takes_text .token quote rest
          rw [hquote] at hread
          exact refuses_anyCharBut hread.alt
        · obtain ⟨after, hread⟩ := takes_newline_of hline rest
          exact refuses_anyCharBut (Refuses.alt_takes (refuses_oneChar hquote hc) hread)
  takes {input more} h := by
    cases input with
    | nil => cases h
    | cons c rest =>
      rw [Step.take_cons, quotedStep] at h
      split_ifs at h with hescape hstop
      · obtain ⟨rfl, hnext⟩ := hescape
        cases h
        obtain ⟨d, hhead⟩ := Option.isSome_iff_exists.mp hnext
        obtain ⟨after, rfl⟩ := List.head?_eq_some_iff.mp hhead
        exact ((Takes.seq (takes_text .token "\\" _) (skipsIn_token _)
          (takes_satisfy rfl)).alt).imp fun _ _ => trivial
      · cases h
        obtain ⟨hc, hline⟩ := not_or.mp hstop
        have hplain : Takes .token (anyCharBut (oneOf [text quote, newline])) (c :: rest) rest
            fun _ => True :=
          takes_anyCharBut skipsIn_token (Refuses.alt (refuses_oneChar hquote hc)
            (refuses_newline_of (Bool.eq_false_iff.mpr hline) rest))
        -- a backslash that takes nothing along is the last character of the text
        have hlone : Refuses .token (.seq (text "\\") anyChar) (c :: rest) := by
          by_cases hslash : c = '\\'
          · cases hslash
            cases rest with
            | nil =>
              exact Takes.seq_refuses (takes_text .token "\\" []) (skipsIn_token [])
                (refuses_satisfy fun _ _ hchars => by cases hchars)
            | cons d rest => exact absurd ⟨rfl, rfl⟩ hescape
          · exact Refuses.seq (refuses_oneChar rfl hslash)
        exact hlone.alt_takes hplain

/-! ## 2. Items -/

/-- Whether some characters are one lexeme, neither a word nor a bracket, and a pattern reads them
    wherever this lexeme ends. -/
structure IsPlain (item : Pattern) (c : Char) (tail : List Char) : Prop where
  plain : Lexeme.of c tail = .plain (c :: tail)
  takes : ∀ {rest}, Ends c tail rest →
    Takes .token item (c :: (tail ++ rest)) rest fun _ => True

theorem of_eq_plain {c : Char} (hstart : Text.isIdentifierStart c = false)
    (hbracket : isBracket c = false) (tail : List Char) :
    Lexeme.of c tail = .plain (c :: tail) := by
  simp [Lexeme.of, hstart, hbracket]

/-- What a pattern reads between an opening and a closing text is one lexeme. -/
theorem exists_enclosed {opening closing : String} {c : Char} {more : List Char}
    (hsteps : Steps pattern step) (hopening : opening.toList = c :: more)
    (hplain : ∀ tail, Lexeme.of c tail = .plain (c :: tail))
    (htail : ∀ rest, tailLength c (more ++ rest) =
      more.length + (runLength step rest + closing.toList.length))
    (h : declarations.Reads .token (inOrder [text opening, .many pattern, text closing]) cursor
      (some (nodes, last))) :
    ∃ inner, cursor.Reaches last (c :: (more ++ inner)) ∧ Ends c (more ++ inner) last.rest ∧
      IsPlain (inOrder [text opening, .many pattern, text closing]) c (more ++ inner) := by
  obtain ⟨_, inside, _, hopen, h, -⟩ := h.of_seq_tight nofun
  obtain ⟨_, stop, _, hmany, hclose, -⟩ := h.of_seq_tight nofun
  have hopen := hopen.of_literal.2
  have hclose := hclose.of_literal.2
  rw [hopening] at hopen
  obtain ⟨cs, hinside, hlength⟩ := hsteps.exists_run hmany
  refine ⟨cs ++ closing.toList, hopen.trans (hinside.trans hclose), ?_, hplain _, ?_⟩
  · rw [hinside.1, hclose.1] at hlength
    rw [Ends, List.append_assoc, List.append_assoc, htail, hlength, List.length_append,
      List.length_append]
  · intro rest hends
    rw [Ends, List.append_assoc, List.append_assoc, htail, List.length_append,
      List.length_append] at hends
    have hrun : runLength step (cs ++ (closing.toList ++ rest)) = cs.length := by omega
    have htakes := hsteps.takes_many (cs ++ (closing.toList ++ rest))
    rw [hrun, List.drop_left] at htakes
    rw [List.append_assoc, List.append_assoc, ← List.cons_append, ← hopening]
    exact (Takes.seq (takes_text .token opening _) (skipsIn_token _) (Takes.seq htakes
      (skipsIn_token _) (takes_text .token closing rest))).imp fun _ _ => trivial

theorem exists_quoted {quote : String} {q : Char} (hquote : quote.toList = [q])
    (hq : q = '"' ∨ q = '\'')
    (h : declarations.Reads .token (quoted quote) cursor (some (nodes, last))) :
    ∃ tail, cursor.Reaches last (q :: tail) ∧ Ends q tail last.rest ∧
      IsPlain (quoted quote) q tail := by
  refine exists_enclosed (steps_quoted hquote ?_) hquote ?_ ?_ h
  · rcases hq with rfl | rfl <;> decide
  · rcases hq with rfl | rfl <;> exact of_eq_plain (by decide) (by decide)
  · intro rest
    rw [hquote, List.nil_append, List.length_nil, Nat.zero_add]
    rcases hq with rfl | rfl <;> rfl

theorem exists_raw
    (h : declarations.Reads .token (ruleBody .rawStringLit) cursor (some (nodes, last))) :
    ∃ tail, cursor.Reaches last ('\x60' :: tail) ∧ Ends '\x60' tail last.rest ∧
      IsPlain (ruleBody .rawStringLit) '\x60' tail :=
  exists_enclosed steps_raw rfl (of_eq_plain (by decide) (by decide))
    (fun _ => (Nat.zero_add _).symm) h

theorem exists_blockComment
    (h : declarations.Reads .token blockComment cursor (some (nodes, last))) :
    ∃ inner, cursor.Reaches last ('/' :: '*' :: inner) ∧ Ends '/' ('*' :: inner) last.rest ∧
      IsPlain blockComment '/' ('*' :: inner) :=
  exists_enclosed steps_block rfl (of_eq_plain (by decide) (by decide)) (fun _ => rfl) h

theorem exists_lineComment
    (h : declarations.Reads .token lineComment cursor (some (nodes, last))) :
    ∃ inner, cursor.Reaches last ('/' :: '/' :: inner) ∧ Ends '/' ('/' :: inner) last.rest ∧
      IsPlain lineComment '/' ('/' :: inner) := by
  obtain ⟨_, inside, _, hopen, hmany, -⟩ := h.of_seq_tight nofun
  have hopen := hopen.of_literal.2
  obtain ⟨cs, hinside, hlength⟩ := steps_line.exists_run hmany
  have htail : ∀ rest, tailLength '/' ('/' :: rest) =
      1 + runLength (oneOfClass (!isLineEnd ·)) rest := fun _ => rfl
  refine ⟨cs, hopen.trans hinside, ?_, of_eq_plain (by decide) (by decide) _, ?_⟩
  · rw [hinside.1] at hlength
    rw [Ends, List.cons_append, htail, hlength, List.length_cons, Nat.add_comm]
  · intro rest hends
    rw [Ends, List.cons_append, htail, List.length_cons] at hends
    have htakes := steps_line.takes_many (cs ++ rest)
    rw [(by omega : runLength (oneOfClass (!isLineEnd ·)) (cs ++ rest) = cs.length),
      List.drop_left] at htakes
    exact (Takes.seq (takes_text .token "//" (cs ++ rest)) (skipsIn_token _) htakes).imp
      fun _ _ => trivial

theorem of_isDigit {c : Char} (h : c.isDigit = true) :
    Text.isIdentifierStart c = false ∧ isBracket c = false ∧ c ≠ '"' ∧ c ≠ '\x60' ∧ c ≠ '\'' ∧
      c ≠ '/' := by
  have hdigits : ∀ n < 58, 48 ≤ n → Text.isIdentifierStart (Char.ofNat n) = false ∧
      isBracket (Char.ofNat n) = false ∧ Char.ofNat n ≠ '"' ∧ Char.ofNat n ≠ '\x60' ∧
      Char.ofNat n ≠ '\'' ∧ Char.ofNat n ≠ '/' := by decide
  obtain ⟨hlower, hupper⟩ := Bool.and_eq_true_iff.mp h
  have hlower : 48 ≤ c.toNat := of_decide_eq_true hlower
  have hupper : c.toNat ≤ 57 := of_decide_eq_true hupper
  rw [← Char.ofNat_toNat c]
  exact hdigits c.toNat (by omega) hlower

theorem exists_number
    (h : declarations.Reads .token (ruleBody .numberLit) cursor (some (nodes, last))) :
    ∃ c tail, c.isDigit = true ∧ cursor.Reaches last (c :: tail) ∧ Ends c tail last.rest ∧
      IsPlain (ruleBody .numberLit) c tail := by
  obtain ⟨_, inside, _, hdigit, hmany, -⟩ := h.of_seq_tight nofun
  obtain ⟨-, c, hc, hdigit⟩ := hdigit.of_satisfy
  obtain ⟨cs, hinside, hlength⟩ := steps_number.exists_run hmany
  obtain ⟨hstart, hbracket, -⟩ := of_isDigit hc
  have htail : ∀ rest, tailLength c rest = runLength numberStep rest := by
    intro rest
    rw [tailLength, if_neg (by simp [hstart]), if_pos hc]
  refine ⟨c, cs, hc, hdigit.trans hinside, ?_, of_eq_plain hstart hbracket _, ?_⟩
  · rw [hinside.1] at hlength
    rw [Ends, htail, hlength]
  · intro rest hends
    have htakes := steps_number.takes_many (cs ++ rest)
    rw [Ends, htail] at hends
    rw [hends, List.drop_left] at htakes
    exact (Takes.seq (takes_satisfy hc) (skipsIn_token _) htakes).imp fun _ _ => trivial

/-! ## 3. Characters that no item starts with -/

/-- Whether a character is none of those that decide where plain text stops. -/
structure IsOther (c : Char) : Prop where
  start : Text.isIdentifierStart c = false
  bracket : isBracket c = false
  digit : c.isDigit = false
  quote : c ≠ '"'
  raw : c ≠ '\x60'
  rune : c ≠ '\''

theorem IsOther.tailLength_eq {c : Char} (h : IsOther c) (rest : List Char) :
    tailLength c rest = if c = '/' then commentLength rest else 0 := by
  rw [tailLength, if_neg (by simp [h.start]), if_neg (by simp [h.digit]),
    if_neg (not_or.mpr ⟨h.quote, h.rune⟩), if_neg h.raw]

/-- Where the stops of plain text fail, there is another character, and no comment. -/
theorem exists_isOther {stops : List Pattern} (hstops : ∀ stop ∈ textStops, stop ∈ stops)
    {c : Char} (hrest : cursor.rest = c :: rest)
    (h : declarations.Reads .token (oneOf stops) cursor none) :
    IsOther c ∧ (c = '/' → commentLength rest = 0) := by
  have hstop : ∀ stop ∈ textStops, declarations.Reads .token stop cursor none :=
    fun stop hmem => h.oneOf_fails stop (hstops stop hmem)
  have htext : ∀ {s : String}, text s ∈ textStops → ¬ s.toList <+: c :: rest :=
    fun hmem => hrest ▸ (hstop _ hmem).literal_fails
  have hbracket : isBracket c = false := by
    have hbrackets : ∀ s ∈ ["(", ")", "\x7b", "\x7d", "[", "]"],
        declarations.Reads .token (text s) cursor none := fun s hs =>
      (hstop bracket (by simp [textStops])).oneOf_fails _ (List.mem_map_of_mem hs)
    refine Bool.eq_false_iff.mpr fun hc => ?_
    have hsingle : [c] ∈ ["(", ")", "\x7b", "\x7d", "[", "]"].map String.toList := by
      rcases cases_of_isBracket hc with rfl | rfl | rfl | rfl | rfl | rfl <;> decide
    obtain ⟨s, hs, hchars⟩ := List.mem_map.mp hsingle
    exact (hbrackets s hs).literal_fails ⟨rest, by rw [hchars, hrest]; rfl⟩
  refine ⟨⟨?_, hbracket, ?_, ?_, ?_, ?_⟩, ?_⟩
  · exact (hstop identifierStart (by simp [textStops])).satisfy_fails c rest hrest
  · exact (hstop digit (by simp [textStops])).satisfy_fails c rest hrest
  · rintro rfl
    exact htext (by simp [textStops] : text "\"" ∈ textStops) ⟨rest, rfl⟩
  · rintro rfl
    exact htext (by simp [textStops] : text "\x60" ∈ textStops) ⟨rest, rfl⟩
  · rintro rfl
    exact htext (by simp [textStops] : text "'" ∈ textStops) ⟨rest, rfl⟩
  · rintro rfl
    cases rest with
    | nil => rfl
    | cons d rest =>
      rw [commentLength, if_neg, if_neg]
      · rintro rfl
        exact htext (by simp [textStops] : text "/*" ∈ textStops) ⟨rest, rfl⟩
      · rintro rfl
        exact htext (by simp [textStops] : text "//" ∈ textStops) ⟨rest, rfl⟩

theorem refuses_bracket {c : Char} (h : isBracket c = false) (rest : List Char) :
    Refuses .token bracket (c :: rest) := by
  refine refuses_oneOf fun pattern hmem => ?_
  have hne : ∀ d, isBracket d = true → c ≠ d := by
    rintro d hd rfl
    exact Bool.false_ne_true (h.symm.trans hd)
  simp only [List.mem_cons, List.not_mem_nil, or_false] at hmem
  rcases hmem with rfl | rfl | rfl | rfl | rfl | rfl <;>
  exact refuses_oneChar rfl (hne _ rfl)

theorem refuses_comment_of {c : Char} (h : c = '/' → commentLength rest = 0) :
    Refuses .token (text "//") (c :: rest) ∧ Refuses .token (text "/*") (c :: rest) := by
  constructor
  · refine refuses_text fun after heq => ?_
    obtain ⟨rfl, rfl⟩ : c = '/' ∧ rest = '/' :: after := List.cons.inj heq
    have hzero := h rfl
    rw [commentLength, if_pos rfl] at hzero
    omega
  · refine refuses_text fun after heq => ?_
    obtain ⟨rfl, rfl⟩ : c = '/' ∧ rest = '*' :: after := List.cons.inj heq
    have hzero := h rfl
    rw [commentLength, if_neg (by decide), if_pos rfl] at hzero
    omega

theorem IsOther.refuses_textStops {c : Char} (h : IsOther c)
    (hcomment : c = '/' → commentLength rest = 0) :
    ∀ stop ∈ textStops, Refuses .token stop (c :: rest) := by
  obtain ⟨hline, hblock⟩ := refuses_comment_of hcomment
  intro stop hmem
  simp only [textStops, List.mem_cons, List.not_mem_nil, or_false] at hmem
  rcases hmem with rfl | rfl | rfl | rfl | rfl | rfl | rfl | rfl
  · exact refuses_bracket h.bracket rest
  · exact refuses_satisfy fun d after heq => by cases heq; exact h.start
  · exact refuses_oneChar rfl h.quote
  · exact refuses_oneChar rfl h.raw
  · exact refuses_oneChar rfl h.rune
  · exact hline
  · exact hblock
  · exact refuses_satisfy fun d after heq => by cases heq; exact h.digit

/-! ## 4. The text of a stream -/

/-- One item of the text of a stream with the given stops. -/
def streamItem (stops : List Pattern) : Pattern :=
  oneOf (textItems ++ [anyCharBut (oneOf stops)])

/-- Where plain text stops that is not inside of brackets: at the end of the line, too. -/
def lineStops : List Pattern :=
  newline :: text ";" :: textStops

/-- The stops of the two kinds of text. -/
def IsStops (stops : List Pattern) : Prop :=
  stops = textStops ∨ stops = lineStops

theorem IsStops.subset {stops : List Pattern} (h : IsStops stops) :
    ∀ stop ∈ textStops, stop ∈ stops := by
  rcases h with rfl | rfl
  · exact fun _ hmem => hmem
  · exact fun _ hmem => .tail _ (.tail _ hmem)

/-- An item is one lexeme also as the first that fits, where those before it do not. -/
theorem IsPlain.of_oneOf {before after : List Pattern} {c : Char} {tail : List Char}
    (h : IsPlain item c tail)
    (hbefore : ∀ rest, Ends c tail rest →
      ∀ other ∈ before, Refuses .token other (c :: (tail ++ rest))) :
    IsPlain (oneOf (before ++ item :: after)) c tail where
  plain := h.plain
  takes hends := takes_oneOf (hbefore _ hends) (h.takes hends)

theorem IsPlain.call {rule : Rule} {c : Char} {tail : List Char} (hkind : ruleKind rule = .token)
    (h : IsPlain (ruleBody rule) c tail) : IsPlain (.call rule) c tail where
  plain := h.plain
  takes hends := (Takes.call_token (by rw [hkind]; exact h.takes hends)).imp fun _ _ => trivial

/-- Literals start with their quotes. -/
theorem refuses_literals {c : Char} (hquote : c ≠ '"') (hraw : c ≠ '\x60') (hrune : c ≠ '\'')
    (rest : List Char) :
    ∀ item ∈ textItems.take 3, Refuses .token item (c :: rest) := by
  intro item hmem
  have hmem : item ∈ [call .stringLit, call .rawStringLit, call .runeLit] := hmem
  simp only [List.mem_cons, List.not_mem_nil, or_false] at hmem
  rcases hmem with rfl | rfl | rfl
  · exact Refuses.call (Refuses.seq (refuses_oneChar rfl hquote))
  · exact Refuses.call (Refuses.seq (refuses_oneChar rfl hraw))
  · exact Refuses.call (Refuses.seq (refuses_oneChar rfl hrune))

/-- No item is read where another character stands and no comment. -/
theorem IsOther.refuses_textItems {c : Char} (h : IsOther c)
    (hcomment : c = '/' → commentLength rest = 0) :
    ∀ item ∈ textItems, Refuses .token item (c :: rest) := by
  obtain ⟨hline, hblock⟩ := refuses_comment_of hcomment
  intro item hmem
  rw [← List.take_append_drop 3 textItems] at hmem
  rcases List.mem_append.mp hmem with hmem | hmem
  · exact refuses_literals h.quote h.raw h.rune rest item hmem
  · have hmem : item ∈ [lineComment, blockComment, call .numberLit] := hmem
    simp only [List.mem_cons, List.not_mem_nil, or_false] at hmem
    rcases hmem with rfl | rfl | rfl
    · exact Refuses.seq hline
    · exact Refuses.seq hblock
    · exact Refuses.call (Refuses.seq (refuses_satisfy fun d after heq => by
        cases heq; exact h.digit))

/-- A character where no stop fits is read where no comment starts with it. -/
theorem exists_other {stops : List Pattern} (hstops : IsStops stops)
    (h : declarations.Reads .token (anyCharBut (oneOf stops)) cursor (some (nodes, last))) :
    ∃ c, IsOther c ∧ cursor.Reaches last [c] ∧ Ends c [] last.rest ∧
      IsPlain (anyCharBut (oneOf stops)) c [] := by
  obtain ⟨hfails, c, hreaches⟩ := h.of_anyCharBut
  have hrest : cursor.rest = c :: last.rest := hreaches.1
  obtain ⟨hother, hcomment⟩ := exists_isOther hstops.subset hrest hfails
  have hends : ∀ rest, Ends c [] rest ↔ (c = '/' → commentLength rest = 0) := by
    intro rest
    rw [Ends, List.nil_append, hother.tailLength_eq, List.length_nil]
    split_ifs with hc
    · exact ⟨fun h _ => h, fun h => h hc⟩
    · exact ⟨fun _ h => absurd h hc, fun _ => rfl⟩
  refine ⟨c, hother, hreaches, (hends _).mpr hcomment,
    of_eq_plain hother.start hother.bracket _, fun {rest} hrest' => ?_⟩
  have htext := hother.refuses_textStops ((hends rest).mp hrest')
  refine takes_anyCharBut skipsIn_token (refuses_oneOf ?_)
  rcases hstops with rfl | rfl
  · exact htext
  · have hline : isLineEnd c = false := by
      refine Bool.eq_false_iff.mpr fun hc => ?_
      obtain ⟨after, hread⟩ := takes_newline_of hc last.rest
      rw [← hrest] at hread
      exact hread.not_fails (hfails.oneOf_fails newline List.mem_cons_self)
    have hsemicolon : c ≠ ';' := by
      rintro rfl
      exact (hfails.oneOf_fails (text ";") (.tail _ List.mem_cons_self)).literal_fails
        ⟨last.rest, hrest.symm⟩
    intro stop hmem
    rcases List.mem_cons.mp hmem with rfl | hmem
    · exact refuses_newline_of hline rest
    · rcases List.mem_cons.mp hmem with rfl | hmem
      · exact refuses_oneChar rfl hsemicolon
      · exact htext stop hmem

/-- **What an item of the text of a stream reads is one lexeme**, neither a word nor a bracket, and
    the item reads it wherever this lexeme ends. -/
theorem exists_plain {stops : List Pattern} (hstops : IsStops stops)
    (h : declarations.Reads .token (streamItem stops) cursor (some (nodes, last))) :
    ∃ c tail, cursor.Reaches last (c :: tail) ∧ Ends c tail last.rest ∧
      IsPlain (streamItem stops) c tail := by
  have hne : textItems ++ [anyCharBut (oneOf stops)] ≠ [] := List.cons_ne_nil _ _
  obtain ⟨item, hmem, h⟩ := h.of_oneOf hne
  simp only [textItems, List.cons_append, List.nil_append, List.mem_cons, List.not_mem_nil,
    or_false] at hmem
  rcases hmem with rfl | rfl | rfl | rfl | rfl | rfl | rfl
  · obtain ⟨-, _, h⟩ := h.of_call_token
    obtain ⟨tail, hreaches, hends, hplain⟩ := exists_quoted rfl (.inl rfl) h
    have hcall : IsPlain (.call .stringLit) '"' tail := hplain.call rfl
    exact ⟨_, tail, hreaches, hends, @IsPlain.of_oneOf _ [] _ _ _ hcall nofun⟩
  · obtain ⟨-, _, h⟩ := h.of_call_token
    obtain ⟨tail, hreaches, hends, hplain⟩ := exists_raw h
    refine ⟨_, tail, hreaches, hends, @IsPlain.of_oneOf _ (textItems.take 1) _ _ _
      (hplain.call rfl) fun rest _ other hother => ?_⟩
    cases List.mem_singleton.mp hother
    exact Refuses.call (Refuses.seq (refuses_oneChar rfl (by decide)))
  · obtain ⟨-, _, h⟩ := h.of_call_token
    obtain ⟨tail, hreaches, hends, hplain⟩ := exists_quoted rfl (.inr rfl) h
    have hcall : IsPlain (.call .runeLit) '\'' tail := hplain.call rfl
    refine ⟨_, tail, hreaches, hends, @IsPlain.of_oneOf _ (textItems.take 2) _ _ _ hcall
      fun rest _ other hother => ?_⟩
    have hother : other ∈ [call .stringLit, call .rawStringLit] := hother
    simp only [List.mem_cons, List.not_mem_nil, or_false] at hother
    rcases hother with rfl | rfl <;>
    exact Refuses.call (Refuses.seq (refuses_oneChar rfl (by decide)))
  · obtain ⟨inner, hreaches, hends, hplain⟩ := exists_lineComment h
    exact ⟨_, _, hreaches, hends, @IsPlain.of_oneOf _ (textItems.take 3) _ _ _ hplain
      fun rest _ => refuses_literals (by decide) (by decide) (by decide) _⟩
  · obtain ⟨inner, hreaches, hends, hplain⟩ := exists_blockComment h
    refine ⟨_, _, hreaches, hends, @IsPlain.of_oneOf _ (textItems.take 3 ++ [lineComment]) _ _ _
      hplain fun rest _ other hother => ?_⟩
    rcases List.mem_append.mp hother with hother | hother
    · exact refuses_literals (by decide) (by decide) (by decide) _ other hother
    · cases List.mem_singleton.mp hother
      exact Refuses.seq (refuses_text fun after heq => by cases heq)
  · obtain ⟨-, _, h⟩ := h.of_call_token
    obtain ⟨c, tail, hc, hreaches, hends, hplain⟩ := exists_number h
    obtain ⟨-, -, hquote, hraw, hrune, hslash⟩ := of_isDigit hc
    refine ⟨c, tail, hreaches, hends, @IsPlain.of_oneOf _
      (textItems.take 3 ++ [lineComment, blockComment]) _ _ _ (hplain.call rfl)
      fun rest _ other hother => ?_⟩
    rcases List.mem_append.mp hother with hother | hother
    · exact refuses_literals hquote hraw hrune _ other hother
    · simp only [List.mem_cons, List.not_mem_nil, or_false] at hother
      rcases hother with rfl | rfl <;>
      exact Refuses.seq (refuses_text_of_head rfl fun after heq => hslash (List.cons.inj heq).1)
  · obtain ⟨c, hother, hreaches, hends, hplain⟩ := exists_other hstops h
    refine ⟨c, [], hreaches, hends, @IsPlain.of_oneOf _ textItems _ _ _ hplain
      fun rest hends' => hother.refuses_textItems fun hc => ?_⟩
    rw [Ends, hother.tailLength_eq, if_pos hc] at hends'
    exact hends'

end GoStencil.Grammar
