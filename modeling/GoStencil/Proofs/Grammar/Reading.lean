import GoStencil.Grammar.Pattern

/-!
# Reading without counting steps

What a pattern reads, as a relation in which every step has a reason.

* `Grammar.Reads`: a pattern reads up to a place and makes some nodes, or fails.
* `Reads.found_induction`: induction on what is read, without the patterns that fail.
* `Reads.reaches`: a pattern reads a prefix of the text.
-/

namespace GoStencil.Grammar

/-- The nodes and the place at the end of a reading, or nothing where the pattern fails. -/
abbrev Reading := Option (List Node × Cursor)

/-- What may stand between two patterns, as a pattern for tokens. -/
def gapIn (grammar : Grammar) : Mode → Pattern
  | .spaced => grammar.gap
  | .tight | .token => .literal []

/-- What a pattern reads in a mode from a place on. -/
inductive Reads (grammar : Grammar) : Mode → Pattern → Cursor → Reading → Prop where
  | literal (mode : Mode) (text : List Char) (cursor : Cursor) :
      Reads grammar mode (.literal text) cursor ((cursor.skip? text).map ([], ·))
  | satisfy (mode : Mode) (accepts : Char → Bool) (cursor : Cursor) :
      Reads grammar mode (.satisfy accepts) cursor ((cursor.next? accepts).map ([], ·))
  | atStart (mode : Mode) (cursor : Cursor) :
      Reads grammar mode .atStart cursor (if cursor.offset = 0 then some ([], cursor) else none)
  | atEnd (mode : Mode) (cursor : Cursor) :
      Reads grammar mode .atEnd cursor (if cursor.rest.isEmpty then some ([], cursor) else none)
  | call {mode : Mode} {rule : Rule} {cursor last : Cursor} {nodes : List Node}
      (h : Reads grammar ((grammar.kind rule).inside mode) (grammar.body rule) cursor
        (some (nodes, last))) :
      Reads grammar mode (.call rule) cursor
        (some (if mode = .token then [] else [⟨rule, cursor, last, nodes⟩], last))
  | callFails {mode : Mode} {rule : Rule} {cursor : Cursor}
      (h : Reads grammar ((grammar.kind rule).inside mode) (grammar.body rule) cursor none) :
      Reads grammar mode (.call rule) cursor none
  | seq {mode : Mode} {first second : Pattern} {cursor mid next : Cursor} {nodes : List Node}
      {reading : Reading} (hfirst : Reads grammar mode first cursor (some (nodes, mid)))
      (hgap : Reads grammar .token (gapIn grammar mode) mid (some ([], next)))
      (hsecond : Reads grammar mode second next reading) :
      Reads grammar mode (.seq first second) cursor
        (reading.map fun found => (nodes ++ found.1, found.2))
  | seqFails {mode : Mode} {first second : Pattern} {cursor : Cursor}
      (hfirst : Reads grammar mode first cursor none) :
      Reads grammar mode (.seq first second) cursor none
  | altFirst {mode : Mode} {first second : Pattern} {cursor : Cursor}
      {found : List Node × Cursor} (h : Reads grammar mode first cursor (some found)) :
      Reads grammar mode (.alt first second) cursor (some found)
  | altSecond {mode : Mode} {first second : Pattern} {cursor : Cursor} {reading : Reading}
      (hfirst : Reads grammar mode first cursor none)
      (hsecond : Reads grammar mode second cursor reading) :
      Reads grammar mode (.alt first second) cursor reading
  | opt {mode : Mode} {pattern : Pattern} {cursor : Cursor} {reading : Reading}
      (h : Reads grammar mode pattern cursor reading) :
      Reads grammar mode (.opt pattern) cursor (some (reading.getD ([], cursor)))
  | manyNone {mode : Mode} {pattern : Pattern} {cursor : Cursor}
      (h : Reads grammar mode pattern cursor none) :
      Reads grammar mode (.many pattern) cursor (some ([], cursor))
  /-- The last round. What follows it is not read, not even the gap. -/
  | manyLast {mode : Mode} {pattern : Pattern} {cursor mid next : Cursor} {nodes : List Node}
      (hfirst : Reads grammar mode pattern cursor (some (nodes, mid)))
      (hgap : Reads grammar .token (gapIn grammar mode) mid (some ([], next)))
      (hnext : Reads grammar mode pattern next none) :
      Reads grammar mode (.many pattern) cursor (some (nodes, mid))
  /-- A round before another round. -/
  | manyMore {mode : Mode} {pattern : Pattern} {cursor mid next last : Cursor}
      {nodes more : List Node} {found : List Node × Cursor}
      (hfirst : Reads grammar mode pattern cursor (some (nodes, mid)))
      (hgap : Reads grammar .token (gapIn grammar mode) mid (some ([], next)))
      (hnext : Reads grammar mode pattern next (some found))
      (hrest : Reads grammar mode (.many pattern) next (some (more, last))) :
      Reads grammar mode (.many pattern) cursor (some (nodes ++ more, last))
  | ahead {mode : Mode} {pattern : Pattern} {cursor : Cursor} {reading : Reading}
      (h : Reads grammar mode pattern cursor reading) :
      Reads grammar mode (.ahead pattern) cursor (reading.map fun _ => ([], cursor))
  | notAhead {mode : Mode} {pattern : Pattern} {cursor : Cursor} {reading : Reading}
      (h : Reads grammar mode pattern cursor reading) :
      Reads grammar mode (.notAhead pattern) cursor
        (if reading.isSome then none else some ([], cursor))

/-! ## 1. What is read -/

variable {grammar : Grammar}

/-- Whether a pattern of this form may stay where it is, whatever it holds. -/
def Pattern.mayStay : Pattern → Bool
  | .atStart | .atEnd | .opt _ | .many _ | .ahead _ | .notAhead _ => true
  | .literal _ | .satisfy _ | .call _ | .seq _ _ | .alt _ _ => false

/-- **Induction on what is read.** Patterns that stay where they are have one case for all forms,
    and the patterns that fail on the way have none. -/
theorem Reads.found_induction {motive : Mode → Pattern → Cursor → List Node → Cursor → Prop}
    (literal : ∀ {mode text cursor last}, cursor.skip? text = some last →
      motive mode (.literal text) cursor [] last)
    (satisfy : ∀ {mode accepts cursor last}, cursor.next? accepts = some last →
      motive mode (.satisfy accepts) cursor [] last)
    (stay : ∀ {mode pattern cursor}, pattern.mayStay = true → motive mode pattern cursor [] cursor)
    (call : ∀ {mode rule cursor last nodes},
      grammar.Reads ((grammar.kind rule).inside mode) (grammar.body rule) cursor
        (some (nodes, last)) →
      motive ((grammar.kind rule).inside mode) (grammar.body rule) cursor nodes last →
      motive mode (.call rule) cursor
        (if mode = .token then [] else [⟨rule, cursor, last, nodes⟩]) last)
    (seq : ∀ {mode first second cursor mid next last nodes more},
      grammar.Reads mode first cursor (some (nodes, mid)) → motive mode first cursor nodes mid →
      grammar.Reads .token (grammar.gapIn mode) mid (some ([], next)) →
      motive .token (grammar.gapIn mode) mid [] next →
      grammar.Reads mode second next (some (more, last)) → motive mode second next more last →
      motive mode (.seq first second) cursor (nodes ++ more) last)
    (altFirst : ∀ {mode first second cursor last nodes}, motive mode first cursor nodes last →
      motive mode (.alt first second) cursor nodes last)
    (altSecond : ∀ {mode first second cursor last nodes}, motive mode second cursor nodes last →
      motive mode (.alt first second) cursor nodes last)
    (opt : ∀ {mode pattern cursor last nodes}, motive mode pattern cursor nodes last →
      motive mode (.opt pattern) cursor nodes last)
    (manyLast : ∀ {mode pattern cursor last nodes}, motive mode pattern cursor nodes last →
      motive mode (.many pattern) cursor nodes last)
    (manyMore : ∀ {mode pattern cursor mid next last nodes more},
      grammar.Reads mode pattern cursor (some (nodes, mid)) → motive mode pattern cursor nodes mid →
      grammar.Reads .token (grammar.gapIn mode) mid (some ([], next)) →
      motive .token (grammar.gapIn mode) mid [] next →
      grammar.Reads mode (.many pattern) next (some (more, last)) →
      motive mode (.many pattern) next more last →
      motive mode (.many pattern) cursor (nodes ++ more) last)
    {mode : Mode} {pattern : Pattern} {cursor last : Cursor} {nodes : List Node}
    (h : grammar.Reads mode pattern cursor (some (nodes, last))) :
    motive mode pattern cursor nodes last := by
  generalize hreading : some (nodes, last) = reading at h
  induction h generalizing nodes last with
  | literal mode text cursor =>
    obtain ⟨_, hskip, e⟩ := Option.map_eq_some_iff.mp hreading.symm
    cases e
    exact literal hskip
  | satisfy mode accepts cursor =>
    obtain ⟨_, hnext, e⟩ := Option.map_eq_some_iff.mp hreading.symm
    cases e
    exact satisfy hnext
  | atStart | atEnd | notAhead =>
    split at hreading <;> cases hreading
    exact stay rfl
  | call h ih =>
    cases hreading
    exact call h (ih rfl)
  | callFails | seqFails => cases hreading
  | seq hfirst hgap hsecond ihFirst ihGap ihSecond =>
    obtain ⟨found, rfl, e⟩ := Option.map_eq_some_iff.mp hreading.symm
    cases e
    exact seq hfirst (ihFirst rfl) hgap (ihGap rfl) hsecond (ihSecond rfl)
  | altFirst _ ih => exact altFirst (ih hreading)
  | altSecond _ _ _ ih => exact altSecond (ih hreading)
  | @opt _ _ _ reading _ ih =>
    cases reading with
    | none =>
      cases hreading
      exact stay rfl
    | some found => exact opt (ih hreading)
  | manyNone =>
    cases hreading
    exact stay rfl
  | manyLast _ _ _ ih => exact manyLast (ih hreading)
  | manyMore hfirst hgap _ hrest ihFirst ihGap _ ihRest =>
    cases hreading
    exact manyMore hfirst (ihFirst rfl) hgap (ihGap rfl) hrest (ihRest rfl)
  | ahead =>
    obtain ⟨_, -, e⟩ := Option.map_eq_some_iff.mp hreading.symm
    cases e
    exact stay rfl

/-- The inside of a token makes no nodes. -/
theorem Reads.nodes_eq_nil_of_token {pattern : Pattern} {cursor last : Cursor}
    {nodes : List Node} (h : grammar.Reads .token pattern cursor (some (nodes, last))) :
    nodes = [] := by
  refine Reads.found_induction (motive := fun mode _ _ nodes _ => mode = .token → nodes = [])
    ?literal ?satisfy ?stay ?call ?seq ?altFirst ?altSecond ?opt ?manyLast ?manyMore h rfl
  case literal | satisfy | stay => exact fun _ _ => rfl
  case call => exact fun _ _ hmode => if_pos hmode
  case seq | manyMore =>
    exact fun _ ih _ _ _ ih' hmode => List.append_eq_nil_iff.mpr ⟨ih hmode, ih' hmode⟩
  case altFirst | altSecond | opt | manyLast => exact id

/-! ## 2. What is read is a prefix -/

namespace Cursor

/-- Whether a place comes some characters after another. -/
def Reaches (cursor last : Cursor) (cs : List Char) : Prop :=
  cursor.rest = cs ++ last.rest ∧ last.offset = cursor.offset + byteLength cs

theorem byteLength_append (cs ds : List Char) :
    byteLength (cs ++ ds) = byteLength cs + byteLength ds := by
  induction cs with
  | nil => exact (Nat.zero_add _).symm
  | cons c cs ih => rw [List.cons_append, byteLength, ih, byteLength, Nat.add_assoc]

theorem reaches_refl (cursor : Cursor) : cursor.Reaches cursor [] :=
  ⟨rfl, rfl⟩

theorem Reaches.trans {first mid last : Cursor} {cs ds : List Char} (h : first.Reaches mid cs)
    (h' : mid.Reaches last ds) : first.Reaches last (cs ++ ds) := by
  constructor
  · rw [h.1, h'.1, List.append_assoc]
  · rw [h'.2, h.2, byteLength_append, Nat.add_assoc]

theorem reaches_of_next? {cursor last : Cursor} {accepts : Char → Bool}
    (h : cursor.next? accepts = some last) : ∃ c, accepts c = true ∧ cursor.Reaches last [c] := by
  obtain ⟨offset, rest⟩ := cursor
  unfold next? at h
  dsimp only at h
  split at h
  · cases h
  · rename_i c rest'
    split at h
    · rename_i hc
      cases h
      exact ⟨c, hc, rfl, rfl⟩
    · cases h

/-- What stands between a place and one that it reaches. -/
theorem Reaches.upTo {cursor last : Cursor} {cs : List Char} (h : cursor.Reaches last cs) :
    cursor.upTo last = cs := by
  unfold Cursor.upTo
  rw [h.1, h.2, Nat.add_sub_cancel_left]
  clear h
  induction cs with
  | nil =>
    show takeBytes 0 last.rest = []
    cases last.rest <;> rfl
  | cons c cs ih =>
    have hpos := c.utf8Size_pos
    have hbytes : byteLength (c :: cs) = c.utf8Size + byteLength cs := rfl
    rw [List.cons_append, takeBytes, hbytes, if_neg (by omega), Nat.add_sub_cancel_left, ih]

end Cursor

/-- **A pattern reads a prefix of the text.** -/
theorem Reads.reaches {mode : Mode} {pattern : Pattern} {cursor last : Cursor} {nodes : List Node}
    (h : grammar.Reads mode pattern cursor (some (nodes, last))) :
    ∃ cs, cursor.Reaches last cs := by
  refine Reads.found_induction (motive := fun _ _ cursor _ last => ∃ cs, cursor.Reaches last cs)
    ?literal ?satisfy ?stay ?call ?seq ?altFirst ?altSecond ?opt ?manyLast ?manyMore h
  case literal => exact fun hskip => ⟨_, Cursor.skip?_eq_some_iff.mp hskip⟩
  case satisfy =>
    intro _ _ _ _ hnext
    obtain ⟨c, -, hreaches⟩ := Cursor.reaches_of_next? hnext
    exact ⟨[c], hreaches⟩
  case stay => exact fun {_ _ cursor} _ => ⟨[], cursor.reaches_refl⟩
  case call => exact fun _ ih => ih
  case seq | manyMore =>
    exact fun _ ⟨_, hfirst⟩ _ ⟨_, hgap⟩ _ ⟨_, hrest⟩ => ⟨_, (hfirst.trans hgap).trans hrest⟩
  case altFirst | altSecond | opt | manyLast => exact id

end GoStencil.Grammar
