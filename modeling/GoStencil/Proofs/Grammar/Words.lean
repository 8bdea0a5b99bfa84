import GoStencil.Proofs.Grammar.Phrases

/-!
# Words

Identifiers and keywords, where no further character continues them.

* `isName`: the identifiers that are not reserved.
* `takes_identifier`: a name is read as an identifier.
* `takes_keyword`, `refuses_identifier_of_word`: a reserved word is read as a keyword, and as no
  identifier.
-/

namespace GoStencil.Grammar

open Pattern

variable {mode : Mode} {input rest : List Char}

/-- Whether a text begins with a character that would continue a word. -/
def continues : List Char → Bool
  | [] => false
  | c :: _ => Text.isXidContinue c

/-- Whether a text is an identifier and no reserved word. -/
def isName (ident : String) : Bool :=
  match ident.toList with
  | [] => false
  | c :: cs =>
    Text.isIdentifierStart c && cs.all Text.isXidContinue && !reservedWords.contains ident

theorem refuses_identifierChar (mode : Mode) (h : continues input = false) :
    Refuses mode identifierChar input := by
  refine refuses_satisfy ?_
  rintro c rest rfl
  exact h

theorem takes_identifierChar (mode : Mode) (h : continues input = true) :
    ∃ rest, Takes mode identifierChar input rest (· = []) := by
  cases input with
  | nil => cases h
  | cons c rest => exact ⟨rest, takes_satisfy h⟩

/-! ## 1. Keywords -/

theorem takes_wholeWord (word : String) (h : continues rest = false) :
    Takes .token (wholeWord word) (word.toList ++ rest) rest fun _ => True := by
  have hend := Refuses.notAhead (refuses_identifierChar .token h)
  exact (Takes.seq (takes_text .token word rest) (skipsIn_token rest) hend).imp fun _ _ => trivial

theorem refuses_wholeWord {word : String}
    (h : ∀ rest, input = word.toList ++ rest → continues rest = true) :
    Refuses .token (wholeWord word) input := by
  by_cases hprefix : ∃ rest, input = word.toList ++ rest
  · obtain ⟨rest, rfl⟩ := hprefix
    obtain ⟨_, hchar⟩ := takes_identifierChar .token (h rest rfl)
    exact Takes.seq_refuses (takes_text .token word rest) (skipsIn_token rest) hchar.notAhead
  · exact Refuses.seq (refuses_text fun rest hinput => hprefix ⟨rest, hinput⟩)

section Keywords

variable {rule : Rule} {word : String} (hkind : ruleKind rule = .token)
  (hbody : ruleBody rule = wholeWord word)

include hkind hbody

theorem takes_keyword (hgap : noGap (word.toList ++ rest) = true) (h : continues rest = false) :
    Takes .spaced (keyword rule word) (word.toList ++ rest) rest (· = []) := by
  have hword : Takes .spaced (.call rule) (word.toList ++ rest) rest _ :=
    Takes.call nofun (by rw [hkind, hbody]; exact takes_wholeWord word h)
  refine (Takes.seq hword.ahead (skips_of_noGap hgap) (takes_text .spaced word rest)).imp ?_
  rintro nodes ⟨_, _, rfl, rfl, rfl⟩
  rfl

theorem refuses_keyword (h : ∀ rest, input = word.toList ++ rest → continues rest = true) :
    Refuses .spaced (keyword rule word) input := by
  have hword : Refuses .spaced (.call rule) input :=
    Refuses.call (by rw [hkind, hbody]; exact refuses_wholeWord h)
  exact Refuses.seq hword.ahead

end Keywords

/-! ## 2. Reserved words -/

theorem isXidContinue_of_mem_reservedWords {word : String} (h : word ∈ reservedWords) :
    ∀ c ∈ word.toList, Text.isXidContinue c = true := by
  have hall : ∀ word ∈ reservedWords, word.toList.all Text.isXidContinue = true := by
    decide +kernel
  exact List.all_eq_true.mp (hall word h)

theorem exists_start_of_mem_reservedWords {word : String} (h : word ∈ reservedWords) :
    ∃ c cs, word.toList = c :: cs ∧ Text.isIdentifierStart c = true := by
  have hall : ∀ word ∈ reservedWords, word.toList.head?.any Text.isIdentifierStart = true := by
    decide +kernel
  have hstart := hall word h
  cases hchars : word.toList with
  | nil =>
    rw [hchars] at hstart
    cases hstart
  | cons c cs =>
    rw [hchars] at hstart
    exact ⟨c, cs, rfl, hstart⟩

/-- No reserved word begins with one that stands before it in the list. -/
theorem reservedWords_pairwise :
    reservedWords.Pairwise fun earlier later => ¬ earlier.toList <+: later.toList := by
  decide +kernel

theorem continues_append {cs : List Char} (hcs : cs ≠ [])
    (h : ∀ c ∈ cs, Text.isXidContinue c = true) : continues (cs ++ rest) = true := by
  cases cs with
  | nil => exact absurd rfl hcs
  | cons c cs => exact h c List.mem_cons_self

theorem refuses_reserved
    (h : ∀ word ∈ reservedWords, ∀ rest, input = word.toList ++ rest → continues rest = true) :
    Refuses .token (.call .reserved) input := by
  have hwords : ∀ words : List String,
      (∀ word ∈ words, ∀ rest, input = word.toList ++ rest → continues rest = true) →
      Refuses .token (oneOf (words.map text)) input ∨
        ∃ rest, Takes .token (oneOf (words.map text)) input rest (· = []) ∧
          continues rest = true := by
    intro words
    induction words with
    | nil =>
      intro _
      exact .inl (Takes.notAhead (takes_literal .token [] input))
    | cons word words ih =>
      intro hall
      have hword : Refuses .token (text word) input ∨
          ∃ rest, Takes .token (text word) input rest (· = []) ∧ continues rest = true := by
        by_cases hprefix : ∃ rest, input = word.toList ++ rest
        · obtain ⟨rest, rfl⟩ := hprefix
          exact .inr ⟨rest, takes_text .token word rest, hall word List.mem_cons_self rest rfl⟩
        · exact .inl (refuses_text fun rest hinput => hprefix ⟨rest, hinput⟩)
      cases words with
      | nil => exact hword
      | cons next words =>
        rcases hword with hword | ⟨rest, htakes, hcontinues⟩
        · rcases ih fun word hmem => hall word (List.mem_cons_of_mem _ hmem) with
            hrest | ⟨rest, htakes, hcontinues⟩
          · exact .inl (hword.alt hrest)
          · exact .inr ⟨rest, hword.alt_takes htakes, hcontinues⟩
        · exact .inr ⟨rest, htakes.alt, hcontinues⟩
  refine Refuses.call ?_
  rcases hwords reservedWords h with hrefuses | ⟨rest, htakes, hcontinues⟩
  · exact hrefuses.seq
  · obtain ⟨_, hchar⟩ := takes_identifierChar .token hcontinues
    exact htakes.seq_refuses (skipsIn_token rest) hchar.notAhead

theorem takes_reserved {word : String} (hword : word ∈ reservedWords)
    (h : continues rest = false) :
    Takes .token (.call .reserved) (word.toList ++ rest) rest (· = []) := by
  have hwords : ∀ words : List String, (∀ other ∈ words, other ∈ reservedWords) →
      (words.Pairwise fun earlier later => ¬ earlier.toList <+: later.toList) → word ∈ words →
      Takes .token (oneOf (words.map text)) (word.toList ++ rest) rest (· = []) := by
    intro words
    induction words with
    | nil => nofun
    | cons first words ih =>
      intro hall hpairwise hmem
      by_cases e : word = first
      · subst e
        cases words with
        | nil => exact takes_text .token word rest
        | cons => exact Takes.alt (takes_text .token word rest)
      · have hmem : word ∈ words := (List.mem_cons.mp hmem).resolve_left e
        have hfirst : Refuses .token (text first) (word.toList ++ rest) := by
          refine refuses_text fun rest' hinput => ?_
          rcases List.append_eq_append_iff.mp hinput with ⟨cs, hcs, hrest⟩ | ⟨cs, hcs, -⟩
          · -- a longer word would have to go on with what follows
            by_cases hnil : cs = []
            · subst hnil
              rw [List.append_nil] at hcs
              exact e (String.toList_inj.mp hcs.symm)
            · have hchars := isXidContinue_of_mem_reservedWords (hall first List.mem_cons_self)
              rw [hcs] at hchars
              rw [hrest, continues_append hnil fun c hc =>
                hchars c (List.mem_append_right _ hc)] at h
              cases h
          · exact List.rel_of_pairwise_cons hpairwise hmem ⟨cs, hcs.symm⟩
        have hrest := ih (fun other hother => hall other (List.mem_cons_of_mem _ hother))
          hpairwise.of_cons hmem
        cases words with
        | nil => cases hmem
        | cons => exact hfirst.alt_takes hrest
  have hend := Refuses.notAhead (refuses_identifierChar .token h)
  exact Takes.call_token (Takes.seq (hwords reservedWords (fun _ hmem => hmem)
    reservedWords_pairwise hword) (skipsIn_token rest) hend)

/-! ## 3. Identifiers -/

theorem isName_iff {ident : String} : isName ident = true ↔
    ∃ c cs, ident.toList = c :: cs ∧ Text.isIdentifierStart c = true ∧
      (∀ d ∈ c :: cs, Text.isXidContinue d = true) ∧ ident ∉ reservedWords := by
  unfold isName
  cases hident : ident.toList with
  | nil => simp
  | cons c cs =>
    simp only [Bool.and_eq_true, Bool.not_eq_true', List.all_eq_true]
    constructor
    · rintro ⟨⟨hstart, hrest⟩, hword⟩
      refine ⟨c, cs, rfl, hstart, fun d hd => ?_, by simpa using hword⟩
      rcases List.mem_cons.mp hd with rfl | hd
      · exact Text.isXidContinue_of_isIdentifierStart hstart
      · exact hrest d hd
    · rintro ⟨c', cs', e, hstart, hall, hword⟩
      cases e
      exact ⟨⟨hstart, fun d hd => hall d (List.mem_cons_of_mem _ hd)⟩, by simpa using hword⟩

/-- Where a name stands, a reserved word goes on to be another word. -/
theorem continues_of_isName {ident word : String} {rest' : List Char} (hident : isName ident = true)
    (h : continues rest = false) (hword : word ∈ reservedWords)
    (hinput : ident.toList ++ rest = word.toList ++ rest') : continues rest' = true := by
  obtain ⟨c, cs, hchars, -, hall, hnot⟩ := isName_iff.mp hident
  rw [← hchars] at hall
  have hne : ident.toList ≠ word.toList := fun e => hnot (String.toList_inj.mp e ▸ hword)
  rcases List.append_eq_append_iff.mp hinput with ⟨ds, hds, hrest⟩ | ⟨ds, hds, hrest⟩
  · have hnil : ds ≠ [] := by
      rintro rfl
      rw [List.append_nil] at hds
      exact hne hds.symm
    have hwordChars := isXidContinue_of_mem_reservedWords hword
    rw [hds] at hwordChars
    rw [hrest, continues_append hnil fun c hc => hwordChars c (List.mem_append_right _ hc)] at h
    cases h
  · have hnil : ds ≠ [] := by
      rintro rfl
      rw [List.append_nil] at hds
      exact hne hds
    rw [hds] at hall
    rw [hrest]
    exact continues_append hnil fun c hc => hall c (List.mem_append_right _ hc)

theorem takes_identifierChars {cs : List Char} (hcs : ∀ c ∈ cs, Text.isXidContinue c = true)
    (h : continues rest = false) :
    Takes .token (.many identifierChar) (cs ++ rest) rest fun _ => True :=
  takes_many_chars (fun c hc _ => (takes_satisfy (hcs c hc)).imp fun _ _ => trivial)
    (refuses_identifierChar .token h)

/-- **A name is read as an identifier.** -/
theorem takes_identifier {ident : String} (hmode : mode ≠ .token) (hident : isName ident = true)
    (h : continues rest = false) :
    Takes mode (.call .identifier) (ident.toList ++ rest) rest
      (Spells .identifier ident.toList) := by
  have hreserved : Refuses .token (.call .reserved) (ident.toList ++ rest) :=
    refuses_reserved fun word hword rest' hinput => continues_of_isName hident h hword hinput
  obtain ⟨c, cs, hchars, hstart, hall, -⟩ := isName_iff.mp hident
  have hfirst : Takes .token identifierStart (ident.toList ++ rest) (cs ++ rest) (· = []) := by
    rw [hchars]
    exact takes_satisfy hstart
  have hmany := takes_identifierChars (fun c hc => hall c (List.mem_cons_of_mem _ hc)) h
  exact Takes.call_spells hmode
    (Takes.seq hreserved.notAhead (skipsIn_token _) (Takes.seq hfirst (skipsIn_token _) hmany))

theorem refuses_identifier_of_word {word : String} (hword : word ∈ reservedWords)
    (h : continues rest = false) : Refuses mode (.call .identifier) (word.toList ++ rest) :=
  Refuses.call (Refuses.seq (takes_reserved hword h).notAhead)

theorem refuses_identifier_of_start
    (h : ∀ c rest, input = c :: rest → Text.isIdentifierStart c = false) :
    Refuses mode (.call .identifier) input := by
  have hreserved : Refuses .token (.call .reserved) input := by
    refine refuses_reserved fun word hword rest hinput => ?_
    obtain ⟨c, cs, hchars, hstart⟩ := exists_start_of_mem_reservedWords hword
    rw [hchars] at hinput
    rw [h c _ hinput] at hstart
    cases hstart
  have hstart : Refuses .token identifierStart input := refuses_satisfy h
  exact Refuses.call
    (Takes.seq_refuses hreserved.notAhead (skipsIn_token input) (Refuses.seq hstart))

end GoStencil.Grammar
