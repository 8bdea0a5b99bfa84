import GoStencil.Proofs.Grammar.Steps

/-!
# What a reading says about the text

A reading that succeeds has read the text as its pattern says, and one that fails shows what does
not stand there. Most of what is taken apart here is read without gaps, inside tokens and streams.

* `Reads.of_seq`, `Reads.of_call`, and so on: a reading taken apart, one lemma for each pattern.
* `Rounds`: the rounds of a repetition without gaps. `Reads.rounds` makes a list of them.
* `Reads.exists_call`: every node comes from the reading of its rule, somewhere in the text.
* `IsReadBy`: what is known about the nodes of a pattern that calls one rule.
-/

namespace GoStencil.Grammar

open Pattern

variable {mode : Mode} {pattern first second : Pattern} {rule : Rule} {cursor mid last : Cursor}
  {nodes : List Node} {reading : Reading}

namespace Reads

/-! ## 1. Readings that succeed -/

theorem of_literal {cs : List Char}
    (h : declarations.Reads mode (.literal cs) cursor (some (nodes, last))) :
    nodes = [] ∧ cursor.Reaches last cs := by
  generalize hreading : some (nodes, last) = reading at h
  cases h with
  | literal =>
    obtain ⟨mid, hskip, e⟩ := Option.map_eq_some_iff.mp hreading.symm
    cases e
    exact ⟨rfl, Cursor.skip?_eq_some_iff.mp hskip⟩

theorem of_satisfy {accepts : Char → Bool}
    (h : declarations.Reads mode (.satisfy accepts) cursor (some (nodes, last))) :
    nodes = [] ∧ ∃ c, accepts c = true ∧ cursor.Reaches last [c] := by
  generalize hreading : some (nodes, last) = reading at h
  cases h with
  | satisfy =>
    obtain ⟨mid, hnext, e⟩ := Option.map_eq_some_iff.mp hreading.symm
    cases e
    exact ⟨rfl, Cursor.reaches_of_next? hnext⟩

theorem of_seq (h : declarations.Reads mode (.seq first second) cursor (some (nodes, last))) :
    ∃ left mid next right, declarations.Reads mode first cursor (some (left, mid)) ∧
      declarations.Reads .token (declarations.gapIn mode) mid (some ([], next)) ∧
      declarations.Reads mode second next (some (right, last)) ∧ nodes = left ++ right := by
  generalize hreading : some (nodes, last) = reading at h
  cases h with
  | seq hfirst hgap hsecond =>
    obtain ⟨⟨right, _⟩, rfl, e⟩ := Option.map_eq_some_iff.mp hreading.symm
    cases e
    exact ⟨_, _, _, right, hfirst, hgap, hsecond, rfl⟩
  | seqFails => cases hreading

theorem of_alt {found : List Node × Cursor}
    (h : declarations.Reads mode (.alt first second) cursor (some found)) :
    declarations.Reads mode first cursor (some found) ∨
      declarations.Reads mode first cursor none ∧
        declarations.Reads mode second cursor (some found) := by
  cases h with
  | altFirst h => exact .inl h
  | altSecond hfirst hsecond => exact .inr ⟨hfirst, hsecond⟩

theorem of_opt (h : declarations.Reads mode (.opt pattern) cursor (some (nodes, last))) :
    declarations.Reads mode pattern cursor (some (nodes, last)) ∨
      nodes = [] ∧ last = cursor ∧ declarations.Reads mode pattern cursor none := by
  generalize hreading : some (nodes, last) = reading at h
  cases h with
  | @opt _ _ _ found h =>
    cases found with
    | none =>
      cases hreading
      exact .inr ⟨rfl, rfl, h⟩
    | some =>
      cases hreading
      exact .inl h

theorem of_notAhead (h : declarations.Reads mode (.notAhead pattern) cursor (some (nodes, last))) :
    nodes = [] ∧ last = cursor ∧ declarations.Reads mode pattern cursor none := by
  generalize hreading : some (nodes, last) = reading at h
  cases h with
  | @notAhead _ _ _ found h =>
    cases found with
    | none =>
      cases hreading
      exact ⟨rfl, rfl, h⟩
    | some => cases hreading

theorem of_ahead (h : declarations.Reads mode (.ahead pattern) cursor (some (nodes, last))) :
    nodes = [] ∧ last = cursor := by
  generalize hreading : some (nodes, last) = reading at h
  cases h with
  | @ahead _ _ _ found h =>
    cases found with
    | none => cases hreading
    | some =>
      cases hreading
      exact ⟨rfl, rfl⟩

theorem of_call (h : declarations.Reads mode (.call rule) cursor (some (nodes, last)))
    (hmode : mode ≠ .token) :
    ∃ children, nodes = [⟨rule, cursor, last, children⟩] ∧
      declarations.Reads ((ruleKind rule).inside mode) (ruleBody rule) cursor
        (some (children, last)) := by
  generalize hreading : some (nodes, last) = reading at h
  cases h with
  | call h =>
    cases hreading
    exact ⟨_, if_neg hmode, h⟩
  | callFails => cases hreading

/-- Inside a token, rules make no nodes. -/
theorem of_call_token (h : declarations.Reads .token (.call rule) cursor (some (nodes, last))) :
    nodes = [] ∧ ∃ children, declarations.Reads ((ruleKind rule).inside .token) (ruleBody rule)
      cursor (some (children, last)) := by
  generalize hreading : some (nodes, last) = reading at h
  cases h with
  | call h =>
    cases hreading
    exact ⟨rfl, _, h⟩
  | callFails => cases hreading

/-! ## 2. Readings without gaps -/

theorem eq_of_gap (hmode : mode ≠ .spaced)
    (h : declarations.Reads .token (declarations.gapIn mode) cursor (some (nodes, last))) :
    last = cursor := by
  have hempty : declarations.gapIn mode = .literal [] := by
    cases mode with
    | spaced => exact absurd rfl hmode
    | tight | token => rfl
  rw [hempty] at h
  obtain ⟨hrest, hoffset⟩ := h.of_literal.2
  cases cursor
  cases last
  cases hrest
  cases hoffset
  rfl

theorem of_seq_tight (h : declarations.Reads mode (.seq first second) cursor (some (nodes, last)))
    (hmode : mode ≠ .spaced) :
    ∃ left mid right, declarations.Reads mode first cursor (some (left, mid)) ∧
      declarations.Reads mode second mid (some (right, last)) ∧ nodes = left ++ right := by
  obtain ⟨left, mid, next, right, hfirst, hgap, hsecond, rfl⟩ := h.of_seq
  cases eq_of_gap hmode hgap
  exact ⟨left, mid, right, hfirst, hsecond, rfl⟩

/-! ## 3. Readings that fail -/

theorem literal_fails {cs : List Char} (h : declarations.Reads mode (.literal cs) cursor none) :
    ¬ cs <+: cursor.rest := by
  generalize hreading : none = reading at h
  cases h with
  | literal =>
    rintro ⟨rest, hrest⟩
    have hskip : cursor.skip? cs = some ⟨cursor.offset + Cursor.byteLength cs, rest⟩ :=
      Cursor.skip?_eq_some_iff.mpr ⟨hrest.symm, rfl⟩
    rw [hskip] at hreading
    cases hreading

theorem satisfy_fails {accepts : Char → Bool}
    (h : declarations.Reads mode (.satisfy accepts) cursor none) :
    ∀ c rest, cursor.rest = c :: rest → accepts c = false := by
  generalize hreading : none = reading at h
  cases h with
  | satisfy =>
    intro c rest hrest
    cases hc : accepts c with
    | false => rfl
    | true =>
      have hnext : cursor.next? accepts = some ⟨cursor.offset + c.utf8Size, rest⟩ := by
        rw [Cursor.next?, hrest]
        exact if_pos hc
      rw [hnext] at hreading
      cases hreading

theorem call_fails (h : declarations.Reads mode (.call rule) cursor none) :
    declarations.Reads ((ruleKind rule).inside mode) (ruleBody rule) cursor none := by
  cases h with
  | callFails h => exact h

theorem alt_fails (h : declarations.Reads mode (.alt first second) cursor none) :
    declarations.Reads mode first cursor none ∧ declarations.Reads mode second cursor none := by
  cases h with
  | altSecond hfirst hsecond => exact ⟨hfirst, hsecond⟩

/-- Where no pattern of a list fits, none of them does. -/
theorem oneOf_fails : ∀ {patterns : List Pattern},
    declarations.Reads mode (oneOf patterns) cursor none →
    ∀ pattern ∈ patterns, declarations.Reads mode pattern cursor none
  | [], _, _, hmem => by cases hmem
  | [_], h, _, hmem => by
    cases List.mem_singleton.mp hmem
    exact h
  | _ :: _ :: _, h, _, hmem => by
    obtain ⟨hfirst, hrest⟩ := h.alt_fails
    rcases List.mem_cons.mp hmem with rfl | hmem
    · exact hfirst
    · exact oneOf_fails hrest _ hmem

/-- What is read by one of several patterns is read by some pattern of the list. -/
theorem of_oneOf : ∀ {patterns : List Pattern} {found : List Node × Cursor}, patterns ≠ [] →
    declarations.Reads mode (oneOf patterns) cursor (some found) →
    ∃ pattern ∈ patterns, declarations.Reads mode pattern cursor (some found)
  | [], _, hne, _ => absurd rfl hne
  | [pattern], _, _, h => ⟨pattern, List.mem_cons_self, h⟩
  | pattern :: next :: patterns, _, _, h => by
    rcases h.of_alt with h | ⟨-, h⟩
    · exact ⟨pattern, List.mem_cons_self, h⟩
    · obtain ⟨found, hmem, h⟩ := of_oneOf (List.cons_ne_nil next patterns) h
      exact ⟨found, List.mem_cons_of_mem _ hmem, h⟩

/-- One character where a pattern does not fit. -/
theorem of_anyCharBut
    (h : declarations.Reads .token (anyCharBut pattern) cursor (some (nodes, last))) :
    declarations.Reads .token pattern cursor none ∧ ∃ c, cursor.Reaches last [c] := by
  obtain ⟨_, mid, _, hnot, hchar, -⟩ := h.of_seq_tight nofun
  obtain ⟨-, rfl, hfails⟩ := hnot.of_notAhead
  obtain ⟨-, c, -, hreaches⟩ := hchar.of_satisfy
  exact ⟨hfails, c, hreaches⟩

end Reads

/-! ## 4. Repetitions without gaps -/

/-- The rounds of a repetition without gaps, up to where the pattern fits no more. -/
inductive Rounds (mode : Mode) (pattern : Pattern) : Cursor → List Node → Cursor → Prop where
  | done {cursor : Cursor} (h : declarations.Reads mode pattern cursor none) :
      Rounds mode pattern cursor [] cursor
  | more {cursor mid last : Cursor} {nodes rest : List Node}
      (h : declarations.Reads mode pattern cursor (some (nodes, mid)))
      (hrest : Rounds mode pattern mid rest last) : Rounds mode pattern cursor (nodes ++ rest) last

theorem Reads.rounds (h : declarations.Reads mode (.many pattern) cursor (some (nodes, last)))
    (hmode : mode ≠ .spaced) :
    Rounds mode pattern cursor nodes last := by
  generalize hpattern : Pattern.many pattern = repetition at h
  generalize hreading : some (nodes, last) = reading at h
  induction h generalizing nodes with
  | manyNone h _ =>
    cases hpattern
    cases hreading
    exact .done h
  | manyLast hfirst hgap hnext _ _ _ =>
    cases hpattern
    cases hreading
    cases eq_of_gap hmode hgap
    have hround := Rounds.more hfirst (.done hnext)
    rwa [List.append_nil] at hround
  | manyMore hfirst hgap _ _ _ _ _ ih =>
    cases hpattern
    cases hreading
    cases eq_of_gap hmode hgap
    exact .more hfirst (ih hmode rfl rfl)
  | _ => cases hpattern

theorem Rounds.fails (h : Rounds mode pattern cursor nodes last) :
    declarations.Reads mode pattern last none := by
  induction h with
  | done h => exact h
  | more _ _ ih => exact ih

/-- What holds after every round, and before the first, holds at the end. -/
theorem Rounds.holds_last {P : Cursor → Prop}
    (hround : ∀ {cursor mid : Cursor} {nodes : List Node},
      declarations.Reads mode pattern cursor (some (nodes, mid)) → P mid)
    (h : Rounds mode pattern cursor nodes last) (hfirst : P cursor) : P last := by
  induction h with
  | done => exact hfirst
  | more h _ ih => exact ih (hround h)

/-- Rounds of one character each read a run of characters. -/
theorem Rounds.exists_chars {P : Char → Prop}
    (hround : ∀ {cursor mid : Cursor} {nodes : List Node},
      declarations.Reads mode pattern cursor (some (nodes, mid)) →
        ∃ c, cursor.Reaches mid [c] ∧ P c)
    (h : Rounds mode pattern cursor nodes last) :
    ∃ cs, cursor.Reaches last cs ∧ ∀ c ∈ cs, P c := by
  induction h with
  | done => exact ⟨[], Cursor.reaches_refl _, nofun⟩
  | more h _ ih =>
    obtain ⟨c, hfirst, hc⟩ := hround h
    obtain ⟨cs, hrest, hcs⟩ := ih
    exact ⟨c :: cs, hfirst.trans hrest, List.forall_mem_cons.mpr ⟨hc, hcs⟩⟩

/-- The rounds of a repetition with gaps between them. Each begins where the gap before it ends. -/
inductive SpacedRounds (pattern : Pattern) : Cursor → List Node → Prop where
  | done {cursor : Cursor} : SpacedRounds pattern cursor []
  | more {cursor mid next : Cursor} {nodes rest : List Node}
      (h : declarations.Reads .spaced pattern cursor (some (nodes, mid)))
      (hgap : declarations.Reads .token (declarations.gapIn .spaced) mid (some ([], next)))
      (hrest : SpacedRounds pattern next rest) : SpacedRounds pattern cursor (nodes ++ rest)

theorem Reads.spacedRounds
    (h : declarations.Reads .spaced (.many pattern) cursor (some (nodes, last))) :
    SpacedRounds pattern cursor nodes := by
  generalize hpattern : Pattern.many pattern = repetition at h
  generalize hreading : some (nodes, last) = reading at h
  generalize hmode : Mode.spaced = mode at h
  induction h generalizing nodes with
  | manyNone =>
    cases hreading
    exact .done
  | manyLast hfirst hgap _ _ _ _ =>
    cases hpattern
    cases hreading
    cases hmode
    have hround := SpacedRounds.more hfirst hgap .done
    rwa [List.append_nil] at hround
  | manyMore hfirst hgap _ _ _ _ _ ih =>
    cases hpattern
    cases hreading
    cases hmode
    exact .more hfirst hgap (ih rfl rfl rfl)
  | _ => cases hpattern

/-- A round before others. When there are no others, nothing after it is read. -/
theorem Reads.many_cons {next : Cursor} {more : List Node}
    (h : declarations.Reads mode pattern cursor (some (nodes, mid)))
    (hgap : declarations.Reads .token (declarations.gapIn mode) mid (some ([], next)))
    (hmany : declarations.Reads mode (.many pattern) next (some (more, last))) :
    last = next ∧ declarations.Reads mode (.many pattern) cursor (some (nodes, mid)) ∨
      declarations.Reads mode (.many pattern) cursor (some (nodes ++ more, last)) := by
  cases hmany with
  | manyNone hnone => exact .inl ⟨rfl, .manyLast h hgap hnone⟩
  | manyLast hnext hgapNext hnone =>
    exact .inr (.manyMore h hgap hnext (.manyLast hnext hgapNext hnone))
  | manyMore hnext hgapNext hfound hrest =>
    exact .inr (.manyMore h hgap hnext (.manyMore hnext hgapNext hfound hrest))

/-! ## 5. Gaps -/

namespace Reads

/-- Where a gap ends, no other begins. -/
theorem gap_again {mode : Mode} {next : Cursor}
    (h : declarations.Reads .token (declarations.gapIn mode) cursor (some (nodes, next))) :
    declarations.Reads .token (declarations.gapIn mode) next (some ([], next)) := by
  cases mode with
  | tight | token => exact .literal .token [] next
  | spaced =>
    obtain ⟨_, _, _, hblanks, hcomments, -⟩ := of_seq_tight h nofun
    have hrounds := hcomments.rounds nofun
    have hblank := hrounds.holds_last (fun hround => by
      obtain ⟨_, _, _, -, hmany, -⟩ := hround.of_seq_tight nofun
      exact (hmany.rounds nofun).fails) (hblanks.rounds nofun).fails
    have hagain : declarations.Reads .token blanksAndComments next _ :=
      .seq (.manyNone hblank) (.literal .token [] next) (.manyNone hrounds.fails)
    exact hagain

theorem eq_of_gap_gap {mode : Mode} {next : Cursor} {more : List Node}
    (h : declarations.Reads .token (declarations.gapIn mode) cursor (some (nodes, next)))
    (h' : declarations.Reads .token (declarations.gapIn mode) next (some (more, last))) :
    last = next := by
  have hsame := h'.unique h.gap_again
  exact (Prod.mk.inj (Option.some.inj hsame)).2

end Reads

/-! ## 6. Nodes -/

/-- The rules that make the nodes of a pattern. -/
def Pattern.calls : Pattern → List Rule
  | .call rule => [rule]
  | .seq first second | .alt first second => first.calls ++ second.calls
  | .opt pattern | .many pattern => pattern.calls
  | _ => []

/-- Every node has been made by a rule that the pattern calls. -/
theorem Reads.rule_mem_calls (h : declarations.Reads mode pattern cursor (some (nodes, last))) :
    ∀ node ∈ nodes, node.rule ∈ pattern.calls := by
  refine Reads.found_induction (motive := fun _ pattern _ nodes _ =>
      ∀ node ∈ nodes, node.rule ∈ pattern.calls)
    ?literal ?satisfy ?stay ?call ?seq ?altFirst ?altSecond ?opt ?manyLast ?manyMore h
  case literal | satisfy | stay => exact fun _ => nofun
  case call =>
    intro mode rule _ _ _ _ _ node hmem
    split at hmem
    · cases hmem
    · cases List.mem_singleton.mp hmem
      exact List.mem_singleton_self rule
  case seq =>
    intro _ _ _ _ _ _ _ _ _ _ ihFirst _ _ _ ihSecond node hmem
    rcases List.mem_append.mp hmem with hmem | hmem
    · exact List.mem_append_left _ (ihFirst node hmem)
    · exact List.mem_append_right _ (ihSecond node hmem)
  case altFirst => exact fun ih node hmem => List.mem_append_left _ (ih node hmem)
  case altSecond => exact fun ih node hmem => List.mem_append_right _ (ih node hmem)
  case opt | manyLast => exact id
  case manyMore =>
    intro _ _ _ _ _ _ _ _ _ ihFirst _ _ _ ihRest node hmem
    exact (List.mem_append.mp hmem).elim (ihFirst node) (ihRest node)

/-- **Every node comes from the reading of its rule**, somewhere in what has been read. -/
theorem Reads.exists_call (h : declarations.Reads mode pattern cursor (some (nodes, last)))
    (hmode : mode ≠ .token) : ∀ node ∈ nodes, ∃ cs ds,
      cursor.Reaches node.start cs ∧ node.stop.Reaches last ds ∧
        declarations.Reads mode (.call node.rule) node.start (some ([node], node.stop)) := by
  refine Reads.found_induction (motive := fun mode _ cursor nodes last => mode ≠ .token →
      ∀ node ∈ nodes, ∃ cs ds, cursor.Reaches node.start cs ∧ node.stop.Reaches last ds ∧
        declarations.Reads mode (.call node.rule) node.start (some ([node], node.stop)))
    ?literal ?satisfy ?stay ?call ?seq ?altFirst ?altSecond ?opt ?manyLast ?manyMore h hmode
  case literal | satisfy | stay => exact fun _ _ => nofun
  case call =>
    intro mode rule cursor last children h _ hmode node hmem
    rw [if_neg hmode] at hmem
    cases List.mem_singleton.mp hmem
    have hcall : declarations.Reads mode (.call rule) cursor _ := .call h
    rw [if_neg hmode] at hcall
    exact ⟨[], [], Cursor.reaches_refl _, Cursor.reaches_refl _, hcall⟩
  case seq | manyMore =>
    intros
    rename_i hfirst ihFirst hgap _ hrest ihRest hmode node hmem
    obtain ⟨_, hleft⟩ := hfirst.reaches
    obtain ⟨_, hmid⟩ := hgap.reaches
    obtain ⟨_, hright⟩ := hrest.reaches
    rcases List.mem_append.mp hmem with hmem | hmem
    · obtain ⟨cs, ds, hstart, hstop, hcall⟩ := ihFirst hmode node hmem
      exact ⟨cs, _, hstart, (hstop.trans hmid).trans hright, hcall⟩
    · obtain ⟨cs, ds, hstart, hstop, hcall⟩ := ihRest hmode node hmem
      exact ⟨_, ds, (hleft.trans hmid).trans hstart, hstop, hcall⟩
  case altFirst | altSecond | opt | manyLast => exact id

/-- Whether a node is what a rule reads, with less text after its start than the bound says. -/
structure IsReadBy (mode : Mode) (rule : Rule) (bound : Nat) (node : Node) : Prop where
  rule_eq : node.rule = rule
  length_lt : node.start.rest.length < bound
  reads : declarations.Reads mode (.call rule) node.start (some ([node], node.stop))

theorem IsReadBy.exists_children {bound : Nat} {node : Node} (h : IsReadBy mode rule bound node)
    (hmode : mode ≠ .token) :
    ∃ children, node = ⟨rule, node.start, node.stop, children⟩ ∧
      declarations.Reads ((ruleKind rule).inside mode) (ruleBody rule) node.start
        (some (children, node.stop)) := by
  obtain ⟨children, hnode, hbody⟩ := h.reads.of_call hmode
  exact ⟨children, List.singleton_inj.mp hnode, hbody⟩

namespace Reads

variable {bound : Nat}

theorem nodes_eq_nil (h : declarations.Reads mode pattern cursor (some (nodes, last)))
    (hcalls : pattern.calls = []) : nodes = [] := by
  refine List.eq_nil_iff_forall_not_mem.mpr fun node hmem => ?_
  have hrule := h.rule_mem_calls node hmem
  rw [hcalls] at hrule
  cases hrule

/-- Every node is what its rule reads. -/
theorem isReadBy_rule (h : declarations.Reads mode pattern cursor (some (nodes, last)))
    (hmode : mode ≠ .token) (hbound : cursor.rest.length < bound) :
    ∀ node ∈ nodes, IsReadBy mode node.rule bound node := by
  intro node hmem
  obtain ⟨cs, _, hstart, -, hreads⟩ := h.exists_call hmode node hmem
  exact ⟨rfl, Nat.lt_of_le_of_lt hstart.length_le hbound, hreads⟩

/-- The nodes of a pattern that calls one rule are what this rule reads. -/
theorem isReadBy (h : declarations.Reads mode pattern cursor (some (nodes, last)))
    (hmode : mode ≠ .token) (hcalls : ∀ other ∈ pattern.calls, other = rule)
    (hbound : cursor.rest.length < bound) : ∀ node ∈ nodes, IsReadBy mode rule bound node := by
  intro node hmem
  have hrule := hcalls _ (h.rule_mem_calls node hmem)
  exact hrule ▸ h.isReadBy_rule hmode hbound node hmem

/-- A rule makes one node. -/
theorem exists_one (h : declarations.Reads mode (.call rule) cursor (some (nodes, last)))
    (hmode : mode ≠ .token) (hbound : cursor.rest.length < bound) :
    ∃ node, nodes = [node] ∧ node.start = cursor ∧ node.stop = last ∧
      IsReadBy mode rule bound node := by
  obtain ⟨children, rfl, -⟩ := h.of_call hmode
  exact ⟨_, rfl, rfl, rfl, rfl, hbound, h⟩

/-- What makes no nodes leaves them to what comes after it. -/
theorem of_seq_silent
    (h : declarations.Reads mode (.seq first second) cursor (some (nodes, last)))
    (hcalls : first.calls = []) :
    ∃ mid next, declarations.Reads mode first cursor (some ([], mid)) ∧
      declarations.Reads .token (declarations.gapIn mode) mid (some ([], next)) ∧
      declarations.Reads mode second next (some (nodes, last)) := by
  obtain ⟨left, mid, next, right, hfirst, hgap, hsecond, rfl⟩ := h.of_seq
  obtain rfl := hfirst.nodes_eq_nil hcalls
  exact ⟨mid, next, hfirst, hgap, hsecond⟩

/-- After the first of a sequence, less text is left. -/
theorem length_lt_of_gap (h : declarations.Reads mode pattern cursor (some (nodes, mid)))
    (hconsumes : pattern.consumes = true) {next : Cursor}
    (hgap : declarations.Reads .token (declarations.gapIn mode) mid (some ([], next)))
    (hbound : cursor.rest.length ≤ bound) : next.rest.length < bound :=
  Nat.lt_of_lt_of_le (Nat.lt_of_le_of_lt hgap.length_le (h.length_lt hconsumes)) hbound

theorem length_le_of_gap (h : declarations.Reads mode pattern cursor (some (nodes, mid)))
    {next : Cursor}
    (hgap : declarations.Reads .token (declarations.gapIn mode) mid (some ([], next)))
    (hbound : cursor.rest.length < bound) : next.rest.length < bound :=
  Nat.lt_of_le_of_lt (Nat.le_trans hgap.length_le h.length_le) hbound

end Reads

end GoStencil.Grammar
