import GoStencil.Proofs.Stream.Cuts
import GoStencil.Proofs.Stream.Resume

/-!
# Words of a stream replaced

Words of a stream can be replaced by other parts of a stream without changing how the rest of it is
scanned, unless a comment begins where a slash comes to stand before a star.

* `IsPhrase`: characters that can stand for a word.
* `Replaces`: lexemes with some of their words replaced.
* `Nested.replace`, `Scans.replace`: they are parts of a stream again, and scanned as such.
-/

namespace GoStencil

/-! ## 1. Words replaced -/

/-- Whether the lexeme is a slash by itself. -/
def Lexeme.isSlash (lexeme : Lexeme) : Bool :=
  lexeme == .plain ['/']

namespace Grammar

open Pattern

variable {stops : List Pattern} {before after : List Lexeme} {input rest next : List Char}
  {slash : Bool}

/-- Whether some characters can stand for a word: they are parts of a stream that nothing goes on
    with but what goes on with a word, and no number or comment goes on with them. -/
structure IsPhrase (cs : List Char) : Prop where
  opens : ∃ c rest, cs = c :: rest ∧ c.isDigit = false ∧ c ≠ '/'
  nested : ∀ stops, IsStops stops → Nested stops (scan cs)
  scans : ∀ rest, EndsWord rest → Scans (cs ++ rest) (scan cs) rest

/-- Whether some lexemes are others with phrases for some of their words. The flag says whether a
    slash stands before: then no phrase with a star comes next, as a comment would begin there. -/
inductive Replaces : Bool → List Lexeme → List Lexeme → Prop where
  | nil {slash : Bool} : Replaces slash [] []
  | keep {slash : Bool} {lexeme : Lexeme} {before after : List Lexeme}
      (h : Replaces lexeme.isSlash before after) :
      Replaces slash (lexeme :: before) (lexeme :: after)
  | word {slash : Bool} {cs phrase : List Char} {before after : List Lexeme}
      (hphrase : IsPhrase phrase) (hstar : slash = true → phrase.head? ≠ some '*')
      (h : Replaces false before after) :
      Replaces slash (.word cs :: before) (scan phrase ++ after)

theorem Replaces.eq_nil (h : Replaces slash before after) (hafter : after = []) : before = [] := by
  cases h with
  | nil => rfl
  | keep => cases hafter
  | @word _ _ phrase _ _ hphrase =>
    obtain ⟨c, rest, hopens, -⟩ := hphrase.opens
    have hchars := chars_scan phrase
    rw [(List.append_eq_nil_iff.mp hafter).1, hopens] at hchars
    cases hchars

theorem Replaces.of_append {first second : List Lexeme}
    (h : Replaces slash (first ++ second) after) :
    ∃ left right slash', after = left ++ right ∧ Replaces slash first left ∧
      Replaces slash' second right := by
  induction first generalizing slash after with
  | nil => exact ⟨[], after, slash, rfl, .nil, h⟩
  | cons lexeme first ih =>
    generalize hwhole : lexeme :: first ++ second = whole at h
    cases h with
    | nil => cases hwhole
    | keep h =>
      cases hwhole
      obtain ⟨left, right, slash', rfl, hleft, hright⟩ := ih h
      exact ⟨_ :: left, right, slash', rfl, .keep hleft, hright⟩
    | word hphrase hstar h =>
      cases hwhole
      obtain ⟨left, right, slash', rfl, hleft, hright⟩ := ih h
      exact ⟨_, right, slash', (List.append_assoc _ _ _).symm, .word hphrase hstar hleft, hright⟩

theorem Replaces.of_bracket {c : Char} (h : Replaces slash (.bracket c :: before) after) :
    ∃ others, after = .bracket c :: others ∧ Replaces false before others := by
  cases h with
  | keep h => exact ⟨_, rfl, h⟩

/-- What stands between brackets is replaced there. -/
theorem Replaces.of_group {opening closing : Char} {inside : List Lexeme}
    (h : Replaces slash (.bracket opening :: (inside ++ .bracket closing :: before)) after) :
    ∃ others more, after = .bracket opening :: (others ++ .bracket closing :: more) ∧
      Replaces false inside others ∧ Replaces false before more := by
  obtain ⟨_, rfl, hopen⟩ := h.of_bracket
  obtain ⟨others, _, _, rfl, hinside, hclose⟩ := hopen.of_append
  obtain ⟨more, rfl, hrest⟩ := hclose.of_bracket
  exact ⟨others, more, rfl, hinside, hrest⟩

/-- **Parts of a stream stay so** when phrases are put in for words. -/
theorem Nested.replace (h : Nested stops before) (hstops : IsStops stops)
    (hreplaces : Replaces slash before after) : Nested stops after := by
  induction h generalizing slash after with
  | nil =>
    cases hreplaces
    exact .nil
  | word _ ih =>
    cases hreplaces with
    | keep hrest => exact .word (ih hstops hrest)
    | word hphrase _ hrest => exact (hphrase.nested _ hstops).append (ih hstops hrest)
  | plain hplain _ ih =>
    cases hreplaces with
    | keep hrest => exact .plain hplain (ih hstops hrest)
  | group hopens _ _ ihInside ih =>
    obtain ⟨others, more, rfl, hinside, hrest⟩ := hreplaces.of_group
    exact .group hopens (ihInside (.inl rfl) hinside) (ih hstops hrest)

/-! ## 2. Scanning what is replaced -/

theorem endsWord_iff {rest : List Char} :
    EndsWord rest ↔ (oneOfClass Text.isXidContinue).take rest = 0 := by
  cases rest with
  | nil => exact ⟨fun _ => rfl, fun _ => rfl⟩
  | cons c rest =>
    rw [EndsWord, continues, Step.take_cons, oneOfClass]
    cases Text.isXidContinue c <;> simp

/-- Nothing goes on with a word in the other text either. -/
theorem EndsWord.resume (h : EndsWord rest) (hresumes : Resumes slash rest next) :
    EndsWord next := by
  rw [endsWord_iff] at h ⊢
  have hrun : runLength (oneOfClass Text.isXidContinue) ([] ++ rest) = 0 :=
    runLength_of_take_eq_zero h
  exact take_eq_zero_of_runLength
    (hresumes.runLength_oneOfClass (fun _ => Text.isXidContinue_of_isIdentifierStart) (by decide)
      hrun)

/-- **What is replaced is scanned as such**: every lexeme that is kept ends as before, as does every
    phrase where the word ended. -/
theorem Scans.replace (hreplaces : Replaces slash before after) (h : Scans input before rest)
    (hrest : ∀ slash, Resumes slash rest next) :
    Scans (after.flatMap Lexeme.chars ++ next) after next ∧
      Resumes slash input (after.flatMap Lexeme.chars ++ next) := by
  induction hreplaces generalizing input with
  | nil =>
    cases h
    exact ⟨.done, hrest _⟩
  | @keep slash lexeme _ after _ ih =>
    obtain ⟨c, tail, mid, rfl, rfl, hends, hscans⟩ := h.of_cons
    obtain ⟨hagain, hresumes⟩ := ih hscans
    have hchars : (Lexeme.of c tail).chars = c :: tail := Lexeme.chars_of fun hbracket => by
      rw [Ends, tailLength_of_isBracket hbracket] at hends
      exact List.eq_nil_of_length_eq_zero hends.symm
    have hslash : c = '/' → tail = [] → (Lexeme.of c tail).isSlash = true := by
      rintro rfl rfl
      decide
    rw [List.flatMap_cons, hchars, List.append_assoc, List.cons_append]
    exact ⟨.more (hends.resume hresumes hslash) hagain, hresumes.cons slash c tail⟩
  | @word slash cs phrase _ after hphrase hstar _ ih =>
    obtain ⟨c, tail, mid, rfl, hlexeme, hends, hscans⟩ := h.of_cons
    obtain ⟨hstart, -⟩ := Lexeme.eq_of_word hlexeme
    obtain ⟨hagain, hresumes⟩ := ih hscans
    rw [Ends, tailLength, if_pos hstart] at hends
    have hword := (endsWord_iff.mpr (take_eq_zero_of_runLength hends)).resume hresumes
    rw [List.flatMap_append, chars_scan, List.append_assoc]
    refine ⟨(hphrase.scans _ hword).trans hagain, ?_⟩
    obtain ⟨d, ds, rfl, hdigit, hslash⟩ := hphrase.opens
    exact .word hstart hdigit hslash fun hflag hd => hstar hflag (congrArg some hd)

end Grammar

end GoStencil
