import GoStencil.Proofs.Grammar.Steps

/-!
# Reading phrases wherever they stand

What a pattern reads depends on the characters that follow, never on how many precede. So here
places are given by what follows them.

* `Takes`: a pattern reads from one text up to another and makes nodes of some kind.
* `Refuses`: a pattern fails on a text.
* `Skips`: the gap before a text, and `skips_of_noGap`, `skips_blank` for the two gaps that a
  printed text has.
* `takes_oneOf`, `takes_anyCharBut`: patterns that are made of others.
-/

namespace GoStencil.Grammar

/-- Whether a pattern reads from the first text up to the second and makes nodes with the given
    property. -/
def Takes (mode : Mode) (pattern : Pattern) (input rest : List Char)
    (P : List Node → Prop) : Prop :=
  ∀ offset, ∃ nodes offset', declarations.Reads mode pattern ⟨offset, input⟩
    (some (nodes, ⟨offset', rest⟩)) ∧ P nodes

/-- Whether a pattern fails on a text. -/
def Refuses (mode : Mode) (pattern : Pattern) (input : List Char) : Prop :=
  ∀ offset, declarations.Reads mode pattern ⟨offset, input⟩ none

/-- Whether the gap before the second text, in the given mode, is what the first has more. -/
def SkipsIn (mode : Mode) (input rest : List Char) : Prop :=
  Takes .token (declarations.gapIn mode) input rest (· = [])

/-- Whether the second text follows the gap at the start of the first. -/
def Skips (input rest : List Char) : Prop :=
  SkipsIn .spaced input rest

/-- Whether nodes have been made by two patterns, one after the other. -/
def Joined (P Q : List Node → Prop) (nodes : List Node) : Prop :=
  ∃ left right, nodes = left ++ right ∧ P left ∧ Q right

/-- Whether there is one node, which has been made by the rule. -/
def Makes (rule : Rule) (P : List Node → Prop) (nodes : List Node) : Prop :=
  ∃ start stop children, nodes = [⟨rule, start, stop, children⟩] ∧ P children

/-- Whether there is one node, which stands for the given characters. -/
def Spells (rule : Rule) (cs : List Char) (nodes : List Node) : Prop :=
  ∃ start stop children, nodes = [⟨rule, start, stop, children⟩] ∧ start.upTo stop = cs

/-! ## 1. Patterns -/

section Patterns

variable {mode : Mode} {first second pattern : Pattern} {input mid next rest : List Char}
  {P Q : List Node → Prop}

theorem Takes.imp (h : Takes mode pattern input rest P) (hPQ : ∀ nodes, P nodes → Q nodes) :
    Takes mode pattern input rest Q := by
  intro offset
  obtain ⟨nodes, offset', hreads, hP⟩ := h offset
  exact ⟨nodes, offset', hreads, hPQ nodes hP⟩

theorem takes_literal (mode : Mode) (cs rest : List Char) :
    Takes mode (.literal cs) (cs ++ rest) rest (· = []) := by
  intro offset
  have hskip : Cursor.skip? ⟨offset, cs ++ rest⟩ cs =
      some ⟨offset + Cursor.byteLength cs, rest⟩ := Cursor.skip?_eq_some_iff.mpr ⟨rfl, rfl⟩
  have hreads : declarations.Reads mode (.literal cs) ⟨offset, cs ++ rest⟩ _ :=
    .literal mode cs _
  rw [hskip] at hreads
  exact ⟨[], _, hreads, rfl⟩

theorem refuses_literal {cs : List Char} (h : ∀ rest, input ≠ cs ++ rest) :
    Refuses mode (.literal cs) input := by
  intro offset
  have hskip : Cursor.skip? ⟨offset, input⟩ cs = none := by
    rw [Option.eq_none_iff_forall_ne_some]
    intro last hlast
    exact h last.rest (Cursor.skip?_eq_some_iff.mp hlast).1
  have hreads : declarations.Reads mode (.literal cs) ⟨offset, input⟩ _ := .literal mode cs _
  rwa [hskip] at hreads

theorem takes_satisfy {accepts : Char → Bool} {c : Char} (h : accepts c = true) :
    Takes mode (.satisfy accepts) (c :: rest) rest (· = []) := by
  intro offset
  have hreads : declarations.Reads mode (.satisfy accepts) ⟨offset, c :: rest⟩ _ :=
    .satisfy mode accepts _
  unfold Cursor.next? at hreads
  dsimp only at hreads
  rw [if_pos h] at hreads
  exact ⟨[], _, hreads, rfl⟩

theorem refuses_satisfy {accepts : Char → Bool}
    (h : ∀ c rest, input = c :: rest → accepts c = false) :
    Refuses mode (.satisfy accepts) input := by
  intro offset
  have hreads : declarations.Reads mode (.satisfy accepts) ⟨offset, input⟩ _ :=
    .satisfy mode accepts _
  unfold Cursor.next? at hreads
  cases input with
  | nil => exact hreads
  | cons c rest =>
    dsimp only at hreads
    rwa [h c rest rfl] at hreads

theorem Takes.seq (hfirst : Takes mode first input mid P) (hgap : SkipsIn mode mid next)
    (hsecond : Takes mode second next rest Q) :
    Takes mode (.seq first second) input rest (Joined P Q) := by
  intro offset
  obtain ⟨left, offset₁, hleft, hP⟩ := hfirst offset
  obtain ⟨_, offset₂, hblank, rfl⟩ := hgap offset₁
  obtain ⟨right, offset₃, hright, hQ⟩ := hsecond offset₂
  exact ⟨left ++ right, offset₃, .seq hleft hblank hright, left, right, rfl, hP, hQ⟩

theorem Refuses.seq (h : Refuses mode first input) : Refuses mode (.seq first second) input :=
  fun offset => .seqFails (h offset)

theorem Takes.seq_refuses (hfirst : Takes mode first input mid P) (hgap : SkipsIn mode mid next)
    (hsecond : Refuses mode second next) : Refuses mode (.seq first second) input := by
  intro offset
  obtain ⟨left, offset₁, hleft, -⟩ := hfirst offset
  obtain ⟨_, offset₂, hblank, rfl⟩ := hgap offset₁
  exact .seq hleft hblank (hsecond offset₂)

theorem Takes.alt (h : Takes mode first input rest P) :
    Takes mode (.alt first second) input rest P := by
  intro offset
  obtain ⟨nodes, offset', hreads, hP⟩ := h offset
  exact ⟨nodes, offset', .altFirst hreads, hP⟩

theorem Refuses.alt_takes (hfirst : Refuses mode first input)
    (hsecond : Takes mode second input rest P) : Takes mode (.alt first second) input rest P := by
  intro offset
  obtain ⟨nodes, offset', hreads, hP⟩ := hsecond offset
  exact ⟨nodes, offset', .altSecond (hfirst offset) hreads, hP⟩

theorem Refuses.alt (hfirst : Refuses mode first input) (hsecond : Refuses mode second input) :
    Refuses mode (.alt first second) input :=
  fun offset => .altSecond (hfirst offset) (hsecond offset)

theorem Takes.opt (h : Takes mode pattern input rest P) :
    Takes mode (.opt pattern) input rest P := by
  intro offset
  obtain ⟨nodes, offset', hreads, hP⟩ := h offset
  exact ⟨nodes, offset', .opt hreads, hP⟩

theorem Refuses.opt (h : Refuses mode pattern input) :
    Takes mode (.opt pattern) input input (· = []) :=
  fun offset => ⟨[], offset, .opt (h offset), rfl⟩

theorem Takes.ahead (h : Takes mode pattern input rest P) :
    Takes mode (.ahead pattern) input input (· = []) := by
  intro offset
  obtain ⟨nodes, offset', hreads, -⟩ := h offset
  exact ⟨[], offset, .ahead hreads, rfl⟩

theorem Refuses.ahead (h : Refuses mode pattern input) : Refuses mode (.ahead pattern) input :=
  fun offset => .ahead (h offset)

theorem Takes.notAhead (h : Takes mode pattern input rest P) :
    Refuses mode (.notAhead pattern) input := by
  intro offset
  obtain ⟨nodes, offset', hreads, -⟩ := h offset
  exact .notAhead hreads

theorem Refuses.notAhead (h : Refuses mode pattern input) :
    Takes mode (.notAhead pattern) input input (· = []) :=
  fun offset => ⟨[], offset, .notAhead (h offset), rfl⟩

theorem Refuses.many (h : Refuses mode pattern input) :
    Takes mode (.many pattern) input input (· = []) :=
  fun offset => ⟨[], offset, .manyNone (h offset), rfl⟩

/-- A round that no other follows. The gap after it is not read. -/
theorem Takes.many_last (hround : Takes mode pattern input mid P) (hgap : SkipsIn mode mid next)
    (hnext : Refuses mode pattern next) : Takes mode (.many pattern) input mid P := by
  intro offset
  obtain ⟨nodes, offset₁, hreads, hP⟩ := hround offset
  obtain ⟨_, offset₂, hblank, rfl⟩ := hgap offset₁
  exact ⟨nodes, offset₁, .manyLast hreads hblank (hnext offset₂), hP⟩

theorem Takes.many_more {mid' : List Char} {P' : List Node → Prop}
    (hround : Takes mode pattern input mid P) (hgap : SkipsIn mode mid next)
    (hnext : Takes mode pattern next mid' P') (hrest : Takes mode (.many pattern) next rest Q) :
    Takes mode (.many pattern) input rest (Joined P Q) := by
  intro offset
  obtain ⟨left, offset₁, hleft, hP⟩ := hround offset
  obtain ⟨_, offset₂, hblank, rfl⟩ := hgap offset₁
  obtain ⟨_, _, hagain, -⟩ := hnext offset₂
  obtain ⟨right, offset₃, hright, hQ⟩ := hrest offset₂
  exact ⟨left ++ right, offset₃, .manyMore hleft hblank hagain hright, left, right, rfl, hP, hQ⟩

/-- Pieces of text repeated inside a token, up to where no other comes. -/
theorem takes_many_pieces {pieces : List (List Char)}
    (hpieces : ∀ piece ∈ pieces, ∀ rest, Takes .token pattern (piece ++ rest) rest fun _ => True)
    (hrest : Refuses .token pattern rest) :
    Takes .token (.many pattern) (pieces.flatten ++ rest) rest fun _ => True := by
  have hgap : ∀ input, SkipsIn .token input input := takes_literal .token []
  induction pieces with
  | nil => exact hrest.many.imp fun _ _ => trivial
  | cons piece pieces ih =>
    have hround := hpieces piece List.mem_cons_self (pieces.flatten ++ rest)
    rw [List.flatten_cons, List.append_assoc]
    cases pieces with
    | nil => exact hround.many_last (hgap rest) hrest
    | cons next pieces =>
      have hnext := hpieces next (List.mem_cons_of_mem _ List.mem_cons_self)
        (pieces.flatten ++ rest)
      rw [← List.append_assoc, ← List.flatten_cons] at hnext
      have hmany := ih fun piece hpiece => hpieces piece (List.mem_cons_of_mem _ hpiece)
      exact (hround.many_more (hgap _) hnext hmany).imp fun _ _ => trivial

theorem takes_many_chars {cs : List Char}
    (hcs : ∀ c ∈ cs, ∀ rest, Takes .token pattern (c :: rest) rest fun _ => True)
    (hrest : Refuses .token pattern rest) :
    Takes .token (.many pattern) (cs ++ rest) rest fun _ => True := by
  have hpieces : ∀ piece ∈ cs.map ([·]), ∀ rest,
      Takes .token pattern (piece ++ rest) rest fun _ => True := by
    intro piece hpiece rest
    obtain ⟨c, hc, rfl⟩ := List.mem_map.mp hpiece
    exact hcs c hc rest
  have hmany := takes_many_pieces hpieces hrest
  rwa [← List.flatMap_def, List.flatMap_singleton'] at hmany

/-! ## 2. Rules -/

variable {rule : Rule}

theorem Takes.call (hmode : mode ≠ .token)
    (h : Takes ((ruleKind rule).inside mode) (ruleBody rule) input rest P) :
    Takes mode (.call rule) input rest (Makes rule P) := by
  intro offset
  obtain ⟨nodes, offset', hreads, hP⟩ := h offset
  have hcall : declarations.Reads mode (.call rule) ⟨offset, input⟩ _ := .call hreads
  rw [if_neg hmode] at hcall
  exact ⟨_, offset', hcall, _, _, nodes, rfl, hP⟩

/-- The node of a rule stands for what the rule reads. -/
theorem Takes.call_spells {cs : List Char} (hmode : mode ≠ .token)
    (h : Takes ((ruleKind rule).inside mode) (ruleBody rule) (cs ++ rest) rest P) :
    Takes mode (.call rule) (cs ++ rest) rest (Spells rule cs) := by
  intro offset
  obtain ⟨nodes, offset', hreads, -⟩ := h offset
  have hcall : declarations.Reads mode (.call rule) ⟨offset, cs ++ rest⟩ _ := .call hreads
  rw [if_neg hmode] at hcall
  obtain ⟨ds, hreaches⟩ := hreads.reaches
  have hds : cs = ds := List.append_cancel_right hreaches.1
  exact ⟨_, offset', hcall, _, _, nodes, rfl, hds ▸ hreaches.upTo⟩

theorem Takes.call_token
    (h : Takes ((ruleKind rule).inside .token) (ruleBody rule) input rest P) :
    Takes .token (.call rule) input rest (· = []) := by
  intro offset
  obtain ⟨nodes, offset', hreads, -⟩ := h offset
  exact ⟨[], offset', .call hreads, rfl⟩

theorem Refuses.call (h : Refuses ((ruleKind rule).inside mode) (ruleBody rule) input) :
    Refuses mode (.call rule) input :=
  fun offset => .callFails (h offset)

end Patterns

/-! ## 3. Gaps -/

section Gaps

variable {input rest : List Char}

/-- Whether no gap is at the start of a text: no blank and no comment. -/
def noGap : List Char → Bool
  | ' ' :: _ | '\t' :: _ | '/' :: '/' :: _ | '/' :: '*' :: _ => false
  | _ => true

theorem skipsIn_token (input : List Char) : SkipsIn .token input input :=
  takes_literal .token [] input

theorem skipsIn_tight (input : List Char) : SkipsIn .tight input input :=
  takes_literal .token [] input

theorem takes_text (mode : Mode) (s : String) (rest : List Char) :
    Takes mode (Pattern.text s) (s.toList ++ rest) rest (· = []) :=
  takes_literal mode s.toList rest

theorem refuses_text {mode : Mode} {s : String} (h : ∀ rest, input ≠ s.toList ++ rest) :
    Refuses mode (Pattern.text s) input :=
  refuses_literal h

/-- A text is not what comes when it begins with another character. -/
theorem refuses_text_of_head {mode : Mode} {s : String} {c : Char} {cs : List Char}
    (hs : s.toList = c :: cs) (h : ∀ rest, input ≠ c :: rest) :
    Refuses mode (Pattern.text s) input := by
  refine refuses_text fun rest hinput => ?_
  rw [hs] at hinput
  exact h (cs ++ rest) hinput

theorem refuses_blank (h : noGap input = true) :
    Refuses .token (Pattern.oneOf [.text " ", .text "\t"]) input := by
  refine Refuses.alt (refuses_text_of_head rfl ?_) (refuses_text_of_head rfl ?_) <;>
  · rintro rest rfl
    cases h

theorem refuses_comment (h : noGap input = true) :
    Refuses .token (Pattern.oneOf [Pattern.lineComment, Pattern.blockComment]) input := by
  refine Refuses.alt (Refuses.seq (refuses_text ?_)) (Refuses.seq (refuses_text ?_)) <;>
  · rintro rest rfl
    cases h

theorem takes_noComment (h : noGap input = true) :
    Takes .token (.many (.seq (Pattern.oneOf [Pattern.lineComment, Pattern.blockComment])
      (.many (Pattern.oneOf [.text " ", .text "\t"])))) input input (· = []) :=
  Refuses.many (Refuses.seq (refuses_comment h))

theorem skips_of_noGap (h : noGap input = true) : Skips input input := by
  have hblanks := Refuses.many (refuses_blank h)
  refine (Takes.seq hblanks (skipsIn_token input) (takes_noComment h)).imp ?_
  rintro nodes ⟨_, _, rfl, rfl, rfl⟩
  rfl

theorem skips_blank (h : noGap rest = true) : Skips (' ' :: rest) rest := by
  have hround : Takes .token (Pattern.oneOf [.text " ", .text "\t"]) (' ' :: rest) rest (· = []) :=
    Takes.alt (takes_text .token " " rest)
  have hblanks := hround.many_last (skipsIn_token rest) (refuses_blank h)
  refine (Takes.seq hblanks (skipsIn_token rest) (takes_noComment h)).imp ?_
  rintro nodes ⟨_, _, rfl, rfl, rfl⟩
  rfl

end Gaps

/-! ## 4. Patterns made of others -/

section Derived

open Pattern

variable {input rest : List Char}

theorem refuses_oneChar {mode : Mode} {s : String} {c d : Char} (hs : s.toList = [c])
    (h : d ≠ c) : Refuses mode (text s) (d :: rest) := by
  refine refuses_text_of_head hs ?_
  rintro rest' hrest
  cases hrest
  exact h rfl

theorem takes_oneOf {mode : Mode} {before after : List Pattern} {pattern : Pattern}
    {P : List Node → Prop} (hbefore : ∀ other ∈ before, Refuses mode other input)
    (h : Takes mode pattern input rest P) :
    Takes mode (oneOf (before ++ pattern :: after)) input rest P := by
  induction before with
  | nil =>
    cases after with
    | nil => exact h
    | cons => exact h.alt
  | cons first before ih =>
    have hfirst := hbefore first List.mem_cons_self
    have hrest := ih fun other hmem => hbefore other (List.mem_cons_of_mem _ hmem)
    cases before with
    | nil => exact hfirst.alt_takes hrest
    | cons => exact hfirst.alt_takes hrest

theorem refuses_oneOf {mode : Mode} {patterns : List Pattern}
    (h : ∀ pattern ∈ patterns, Refuses mode pattern input) :
    Refuses mode (oneOf patterns) input := by
  induction patterns with
  | nil => exact Takes.notAhead (takes_literal mode [] input)
  | cons first patterns ih =>
    have hfirst := h first List.mem_cons_self
    have hrest := ih fun pattern hmem => h pattern (List.mem_cons_of_mem _ hmem)
    cases patterns with
    | nil => exact hfirst
    | cons => exact hfirst.alt hrest

theorem takes_anyCharBut {mode : Mode} {pattern : Pattern} {c : Char}
    (hgap : ∀ input, SkipsIn mode input input) (h : Refuses mode pattern (c :: rest)) :
    Takes mode (anyCharBut pattern) (c :: rest) rest fun _ => True :=
  (Takes.seq h.notAhead (hgap _) (takes_satisfy rfl)).imp fun _ _ => trivial

theorem refuses_anyCharBut {mode : Mode} {pattern : Pattern} {P : List Node → Prop}
    (h : Takes mode pattern input rest P) : Refuses mode (anyCharBut pattern) input :=
  Refuses.seq h.notAhead

theorem refuses_anyCharBut_nil {pattern : Pattern} (h : Refuses .token pattern []) :
    Refuses .token (anyCharBut pattern) [] :=
  Takes.seq_refuses h.notAhead (skipsIn_token []) (refuses_satisfy nofun)

end Derived

end GoStencil.Grammar
