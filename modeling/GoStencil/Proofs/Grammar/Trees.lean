import GoStencil.Proofs.Grammar.Inversion

/-!
# Trees of texts

The nodes under a node are made by the body of its rule. From the body it can be told which rules
make them, and in which order.

* `Node.Holds`: the nodes of a tree.
* `Slot`, `Pattern.slots`: the rules that make the nodes of a pattern, one slot after the other.
* `Node.IsRead.fits`: the children of every node that has been read fill the slots of its rule.
* `Node.IsRead.pairwise`, `Node.IsRead.liesBetween`: they follow each other inside of the node.
* `IsTree`: the tree of a whole text. `parse_eq_some_iff_isTree`: it is what `Grammar.parse` finds.
-/

namespace GoStencil.Grammar

open Pattern

variable {mode : Mode} {pattern : Pattern} {cursor last : Cursor} {nodes : List Node}
  {tree node : Node}

/-! ## 1. Nodes in a tree -/

/-- Whether a node is that of a tree, or one under it. -/
inductive Node.Holds (tree : Node) : Node → Prop where
  | self : Holds tree tree
  | child {node child : Node} (h : Holds tree node) (hmem : child ∈ node.children) :
      Holds tree child

theorem Node.Holds.trans {inner : Node} (h : tree.Holds node) (h' : node.Holds inner) :
    tree.Holds inner := by
  induction h' with
  | self => exact h
  | child _ hmem ih => exact ih.child hmem

theorem Node.holds_iff :
    tree.Holds node ↔ node = tree ∨ ∃ child ∈ tree.children, child.Holds node := by
  constructor
  · intro h
    induction h with
    | self => exact .inl rfl
    | @child node child _ hmem ih =>
      rcases ih with rfl | ⟨top, htop, ih⟩
      · exact .inr ⟨child, hmem, .self⟩
      · exact .inr ⟨top, htop, ih.child hmem⟩
  · rintro (rfl | ⟨child, hmem, h⟩)
    · exact .self
    · exact (Node.Holds.self.child hmem).trans h

/-- What holds of a node when it holds of its children holds of every node. -/
theorem Node.induction {P : Node → Prop}
    (step : ∀ node, (∀ child ∈ node.children, P child) → P node) : ∀ node, P node
  | ⟨rule, start, stop, children⟩ => step _ fun child _ => Node.induction step child
termination_by node => sizeOf node
decreasing_by
  rename_i hmem
  have hlt := List.sizeOf_lt_of_mem hmem
  simp only [Node.mk.sizeOf_spec] at hlt ⊢
  omega

/-! ## 2. Slots -/

/-- The rules of one node, of at most one, or of any number of nodes. -/
inductive Slot where
  | one (rules : List Rule)
  | opt (rules : List Rule)
  | many (rules : List Rule)
  deriving DecidableEq, Repr

/-- Whether some nodes fill some slots, in order and with none left over. -/
def Fits : List Slot → List Node → Prop
  | [], nodes => nodes = []
  | .one rules :: slots, nodes =>
    ∃ node rest, nodes = node :: rest ∧ node.rule ∈ rules ∧ Fits slots rest
  | .opt rules :: slots, nodes =>
    Fits slots nodes ∨ ∃ node rest, nodes = node :: rest ∧ node.rule ∈ rules ∧ Fits slots rest
  | .many rules :: slots, nodes =>
    ∃ first rest, nodes = first ++ rest ∧ (∀ node ∈ first, node.rule ∈ rules) ∧ Fits slots rest

theorem Fits.append {slots more : List Slot} {rest : List Node} (h : Fits slots nodes)
    (h' : Fits more rest) : Fits (slots ++ more) (nodes ++ rest) := by
  induction slots generalizing nodes with
  | nil =>
    cases h
    exact h'
  | cons slot slots ih =>
    cases slot with
    | one rules =>
      obtain ⟨node, others, rfl, hrule, h⟩ := h
      exact ⟨node, others ++ rest, rfl, hrule, ih h⟩
    | opt rules =>
      rcases h with h | ⟨node, others, rfl, hrule, h⟩
      · exact .inl (ih h)
      · exact .inr ⟨node, others ++ rest, rfl, hrule, ih h⟩
    | many rules =>
      obtain ⟨first, others, rfl, hrules, h⟩ := h
      exact ⟨first, others ++ rest, List.append_assoc .., hrules, ih h⟩

/-- The slot of any number of nodes, made by some rules that may be listed several times. -/
def Slot.any (calls : List Rule) : Slot :=
  .many calls.eraseDups

theorem fits_any {calls : List Rule} (h : ∀ node ∈ nodes, node.rule ∈ calls) :
    Fits [.any calls] nodes :=
  ⟨nodes, [], (List.append_nil _).symm, fun node hmem => List.mem_eraseDups.mpr (h node hmem), rfl⟩

/-- The slots of a choice, between alternatives that call some rules. -/
def Slot.choice (calls : List Rule) : List Slot → List Slot → List Slot
  | [], [] => []
  | [.one rules], [.one others] => [.one (rules ++ others)]
  | _, _ => [.any calls]

/-- The slots of what may be missing, and calls some rules. -/
def Slot.optional (calls : List Rule) : List Slot → List Slot
  | [] => []
  | [.one rules] => [.opt rules]
  | _ => [.any calls]

/-- The slots that the nodes of a pattern fill. -/
def Pattern.slots : Pattern → List Slot
  | .call rule => [.one [rule]]
  | .seq first second => first.slots ++ second.slots
  | .alt first second => Slot.choice (first.calls ++ second.calls) first.slots second.slots
  | .opt pattern => Slot.optional pattern.calls pattern.slots
  | .many pattern => if pattern.calls = [] then [] else [.any pattern.calls]
  | _ => []

/-- The slots that the children of a node fill. A token has none. -/
def Rule.slots (rule : Rule) : List Slot :=
  if ruleKind rule = .token then [] else (ruleBody rule).slots

example : Rule.funcDecl.slots =
    [.opt [.receiver], .one [.identifier], .one [.signature], .opt [.funcBody]] := by
  decide

example : Rule.sourceFile.slots =
    [.one [.packageClause], .many [.importDecl], .many [.typeDecl, .funcDecl, .valueDecl],
     .one [.endOfInput]] := by
  decide

theorem Slot.fits_choice {calls : List Rule} {first second : List Slot}
    (h : Fits first nodes ∨ Fits second nodes) (hcalls : ∀ node ∈ nodes, node.rule ∈ calls) :
    Fits (choice calls first second) nodes := by
  unfold choice
  split
  · exact h.elim id id
  · rcases h with ⟨node, rest, rfl, hrule, hrest⟩ | ⟨node, rest, rfl, hrule, hrest⟩
    · exact ⟨node, rest, rfl, List.mem_append_left _ hrule, hrest⟩
    · exact ⟨node, rest, rfl, List.mem_append_right _ hrule, hrest⟩
  · exact fits_any hcalls

theorem Slot.fits_optional {calls : List Rule} {slots : List Slot}
    (h : Fits slots nodes ∨ nodes = []) (hcalls : ∀ node ∈ nodes, node.rule ∈ calls) :
    Fits (optional calls slots) nodes := by
  unfold optional
  split
  · exact h.elim id id
  · exact h.elim .inr .inl
  · exact fits_any hcalls

/-- **The nodes of a pattern fill its slots.** -/
theorem Reads.fits (hmode : mode ≠ .token) : ∀ {pattern : Pattern} {cursor last : Cursor}
    {nodes : List Node}, declarations.Reads mode pattern cursor (some (nodes, last)) →
    Fits pattern.slots nodes
  | .literal _, _, _, _, h | .satisfy _, _, _, _, h | .atStart, _, _, _, h | .atEnd, _, _, _, h
  | .ahead _, _, _, _, h | .notAhead _, _, _, _, h => h.nodes_eq_nil rfl
  | .call rule, _, _, _, h => by
    obtain ⟨children, rfl, -⟩ := h.of_call hmode
    exact ⟨_, [], rfl, List.mem_singleton_self rule, rfl⟩
  | .seq first second, _, _, _, h => by
    obtain ⟨_, _, _, _, hfirst, -, hsecond, rfl⟩ := h.of_seq
    exact (Reads.fits hmode hfirst).append (Reads.fits hmode hsecond)
  | .alt first second, _, _, _, h => by
    refine Slot.fits_choice ?_ (h.rule_mem_calls)
    rcases h.of_alt with h | ⟨-, h⟩
    · exact .inl (Reads.fits hmode h)
    · exact .inr (Reads.fits hmode h)
  | .opt pattern, _, _, _, h => by
    refine Slot.fits_optional ?_ (h.rule_mem_calls)
    rcases h.of_opt with h | ⟨hnil, -, -⟩
    · exact .inl (Reads.fits hmode h)
    · exact .inr hnil
  | .many pattern, _, _, _, h => by
    have hcalls := h.rule_mem_calls
    rw [Pattern.slots]
    split
    · rename_i hnone
      exact h.nodes_eq_nil hnone
    · exact fits_any hcalls

/-! ## 3. Places -/

/-- The rounds of a repetition, where the gaps between them make no nodes. -/
theorem Reads.many_rounds {P : Cursor → List Node → Cursor → Prop}
    (hnone : ∀ cursor, P cursor [] cursor)
    (hlast : ∀ {cursor last : Cursor} {nodes : List Node},
      declarations.Reads mode pattern cursor (some (nodes, last)) → P cursor nodes last)
    (hmore : ∀ {cursor mid next last : Cursor} {nodes more : List Node},
      declarations.Reads mode pattern cursor (some (nodes, mid)) →
      declarations.Reads .token (declarations.gapIn mode) mid (some ([], next)) →
      declarations.Reads mode (.many pattern) next (some (more, last)) → P next more last →
      P cursor (nodes ++ more) last)
    (h : declarations.Reads mode (.many pattern) cursor (some (nodes, last))) :
    P cursor nodes last := by
  generalize hpattern : Pattern.many pattern = repetition at h
  generalize hreading : some (nodes, last) = reading at h
  induction h generalizing nodes with
  | manyNone =>
    cases hreading
    exact hnone _
  | manyLast hfirst _ _ _ _ _ =>
    cases hpattern
    cases hreading
    exact hlast hfirst
  | manyMore hfirst hgap _ hrest _ _ _ ih =>
    cases hpattern
    cases hreading
    exact hmore hfirst hgap hrest (ih hlast hmore rfl rfl)
  | _ => cases hpattern

/-- Whether a node ends before another one starts. -/
def Node.Precedes (node other : Node) : Prop :=
  node.stop.offset ≤ other.start.offset

/-- Whether a node lies between two places. -/
def Node.LiesBetween (first last : Cursor) (node : Node) : Prop :=
  first.offset ≤ node.start.offset ∧ node.start.offset ≤ node.stop.offset ∧
    node.stop.offset ≤ last.offset

theorem Cursor.Reaches.offset_le {cs : List Char} (h : cursor.Reaches last cs) :
    cursor.offset ≤ last.offset := by
  rw [h.2]
  exact Nat.le_add_right _ _

theorem Reads.offset_le (h : declarations.Reads mode pattern cursor (some (nodes, last))) :
    cursor.offset ≤ last.offset := by
  obtain ⟨_, hreaches⟩ := h.reaches
  exact hreaches.offset_le

theorem Reads.liesBetween (h : declarations.Reads mode pattern cursor (some (nodes, last)))
    (hmode : mode ≠ .token) : ∀ node ∈ nodes, node.LiesBetween cursor last := by
  intro node hmem
  obtain ⟨_, _, hstart, hstop, hcall⟩ := h.exists_call hmode node hmem
  exact ⟨hstart.offset_le, hcall.offset_le, hstop.offset_le⟩

/-- **The nodes of a pattern follow each other.** -/
theorem Reads.pairwise (hmode : mode ≠ .token) : ∀ {pattern : Pattern} {cursor last : Cursor}
    {nodes : List Node}, declarations.Reads mode pattern cursor (some (nodes, last)) →
    nodes.Pairwise Node.Precedes
  | .literal _, _, _, _, h | .satisfy _, _, _, _, h | .atStart, _, _, _, h | .atEnd, _, _, _, h
  | .ahead _, _, _, _, h | .notAhead _, _, _, _, h => by
    rw [h.nodes_eq_nil rfl]
    exact .nil
  | .call rule, _, _, _, h => by
    obtain ⟨children, rfl, -⟩ := h.of_call hmode
    exact List.pairwise_singleton _ _
  | .seq first second, _, _, _, h => by
    obtain ⟨_, _, _, _, hfirst, hgap, hsecond, rfl⟩ := h.of_seq
    exact List.pairwise_append.mpr ⟨Reads.pairwise hmode hfirst, Reads.pairwise hmode hsecond,
      precedes hfirst hgap hsecond⟩
  | .alt first second, _, _, _, h => by
    rcases h.of_alt with h | ⟨-, h⟩
    · exact Reads.pairwise hmode h
    · exact Reads.pairwise hmode h
  | .opt pattern, _, _, _, h => by
    rcases h.of_opt with h | ⟨rfl, -, -⟩
    · exact Reads.pairwise hmode h
    · exact .nil
  | .many pattern, _, _, _, h =>
    Reads.many_rounds (fun _ => .nil) (fun h => Reads.pairwise hmode h)
      (fun hfirst hgap hrest ih => List.pairwise_append.mpr ⟨Reads.pairwise hmode hfirst, ih,
        precedes hfirst hgap hrest⟩) h
where
  precedes {first second : Pattern} {cursor mid next last : Cursor} {left right : List Node}
      (hfirst : declarations.Reads mode first cursor (some (left, mid)))
      (hgap : declarations.Reads .token (declarations.gapIn mode) mid (some ([], next)))
      (hsecond : declarations.Reads mode second next (some (right, last))) :
      ∀ node ∈ left, ∀ other ∈ right, node.Precedes other := by
    intro node hnode other hother
    obtain ⟨-, -, hstop⟩ := hfirst.liesBetween hmode node hnode
    obtain ⟨hstart, -, -⟩ := hsecond.liesBetween hmode other hother
    exact Nat.le_trans hstop (Nat.le_trans hgap.offset_le hstart)

/-! ## 4. Nodes that have been read -/

/-- Whether a node is what its rule has read. -/
def Node.IsRead (node : Node) : Prop :=
  ∃ mode, mode ≠ .token ∧
    declarations.Reads mode (.call node.rule) node.start (some ([node], node.stop))

theorem Reads.isRead (h : declarations.Reads mode pattern cursor (some (nodes, last)))
    (hmode : mode ≠ .token) : ∀ node ∈ nodes, node.IsRead := by
  intro node hmem
  obtain ⟨_, _, -, -, hcall⟩ := h.exists_call hmode node hmem
  exact ⟨mode, hmode, hcall⟩

namespace Node.IsRead

/-- The children of a node are what the body of its rule has read. A token has none. -/
theorem exists_body (h : node.IsRead) :
    node.children = [] ∧ ruleKind node.rule = .token ∨
      ∃ mode, mode ≠ .token ∧ ruleKind node.rule ≠ .token ∧
        declarations.Reads mode (ruleBody node.rule) node.start
          (some (node.children, node.stop)) := by
  obtain ⟨mode, hmode, h⟩ := h
  obtain ⟨children, hnode, hbody⟩ := h.of_call hmode
  have hchildren : children = node.children := by rw [List.singleton_inj.mp hnode]
  subst hchildren
  cases hkind : ruleKind node.rule with
  | token =>
    rw [hkind] at hbody
    exact .inl ⟨hbody.nodes_eq_nil_of_token, rfl⟩
  | phrase =>
    rw [hkind] at hbody
    exact .inr ⟨mode, hmode, nofun, hbody⟩
  | compound =>
    rw [hkind] at hbody
    exact .inr ⟨.tight, nofun, nofun, hbody⟩

/-- **The children of a node fill the slots of its rule.** -/
theorem fits (h : node.IsRead) : Fits node.rule.slots node.children := by
  rcases h.exists_body with ⟨hchildren, hkind⟩ | ⟨mode, hmode, hkind, hbody⟩
  · rw [Rule.slots, if_pos hkind]
    exact hchildren
  · rw [Rule.slots, if_neg hkind]
    exact hbody.fits hmode

theorem fits_of {rule : Rule} {slots : List Slot} (h : node.IsRead) (hrule : node.rule = rule)
    (hslots : rule.slots = slots) : Fits slots node.children :=
  hslots ▸ hrule ▸ h.fits

theorem child (h : node.IsRead) : ∀ child ∈ node.children, child.IsRead := by
  rcases h.exists_body with ⟨hchildren, -⟩ | ⟨mode, hmode, -, hbody⟩
  · rw [hchildren]
    nofun
  · exact hbody.isRead hmode

theorem of_holds (h : tree.IsRead) (hnode : tree.Holds node) : node.IsRead := by
  induction hnode with
  | self => exact h
  | child _ hmem ih => exact ih.child _ hmem

/-- The rules under a node are among those that the body of its rule calls. -/
theorem rule_mem_calls (h : node.IsRead) :
    ∀ child ∈ node.children, child.rule ∈ (ruleBody node.rule).calls := by
  rcases h.exists_body with ⟨hchildren, -⟩ | ⟨mode, hmode, -, hbody⟩
  · rw [hchildren]
    nofun
  · exact hbody.rule_mem_calls

/-- Under a node stand no rules but some that only call each other. -/
theorem rule_mem_of_holds {rules : List Rule}
    (hclosed : ∀ rule ∈ rules, ∀ other ∈ (ruleBody rule).calls, other ∈ rules)
    (h : tree.IsRead) (hrule : tree.rule ∈ rules) (hnode : tree.Holds node) :
    node.rule ∈ rules := by
  induction hnode with
  | self => exact hrule
  | child hholds hmem ih =>
    exact hclosed _ ih _ ((h.of_holds hholds).rule_mem_calls _ hmem)

theorem pairwise (h : node.IsRead) : node.children.Pairwise Precedes := by
  rcases h.exists_body with ⟨hchildren, -⟩ | ⟨mode, hmode, -, hbody⟩
  · rw [hchildren]
    exact .nil
  · exact hbody.pairwise hmode

theorem start_le_stop (h : node.IsRead) : node.start.offset ≤ node.stop.offset := by
  obtain ⟨_, _, h⟩ := h
  exact h.offset_le

theorem liesBetween (h : tree.IsRead) (hnode : tree.Holds node) :
    node.LiesBetween tree.start tree.stop := by
  induction hnode with
  | self => exact ⟨Nat.le_refl _, h.start_le_stop, Nat.le_refl _⟩
  | child hholds hmem ih =>
    rcases (h.of_holds hholds).exists_body with ⟨hchildren, -⟩ | ⟨mode, hmode, -, hbody⟩
    · rw [hchildren] at hmem
      cases hmem
    · obtain ⟨hstart, hmid, hstop⟩ := hbody.liesBetween hmode _ hmem
      exact ⟨Nat.le_trans ih.1 hstart, hmid, Nat.le_trans hstop ih.2.2⟩

/-- What stands under a node precedes what stands under a later one. -/
theorem precedes {other inner outer : Node} (h : node.IsRead) (hother : other.IsRead)
    (hprecedes : node.Precedes other) (hinner : node.Holds inner) (houter : other.Holds outer) :
    inner.Precedes outer := by
  obtain ⟨-, -, hstop⟩ := h.liesBetween hinner
  obtain ⟨hstart, -, -⟩ := hother.liesBetween houter
  exact Nat.le_trans hstop (Nat.le_trans hprecedes hstart)

end Node.IsRead

/-! ## 5. Trees of whole texts -/

/-- Whether a node is the tree of a text, which its rule has read to the end. -/
def IsTree (rule : Rule) (text : String) (tree : Node) : Prop :=
  ∃ last, declarations.Reads .spaced (.call rule) (Cursor.start text) (some ([tree], last)) ∧
    last.rest = []

/-- Whether a rule reads a whole text. -/
def Accepts (rule : Rule) (text : String) : Prop :=
  ∃ tree, IsTree rule text tree

theorem IsTree.isRead {rule : Rule} {text : String} (h : IsTree rule text tree) :
    tree.IsRead := by
  obtain ⟨last, h, -⟩ := h
  exact h.isRead nofun tree (List.mem_singleton_self tree)

theorem IsTree.rule_eq {rule : Rule} {text : String} (h : IsTree rule text tree) :
    tree.rule = rule := by
  obtain ⟨last, h, -⟩ := h
  obtain ⟨children, hnode, -⟩ := h.of_call nofun
  rw [List.singleton_inj.mp hnode]

/-- Whether a pattern ends with the end of the text. -/
def Pattern.endsText : Pattern → Bool
  | .atEnd => true
  | .call rule => rule = .endOfInput
  | .seq _ second => second.endsText
  | _ => false

theorem Reads.rest_eq_nil : ∀ {pattern : Pattern} {mode : Mode} {cursor last : Cursor}
    {nodes : List Node}, declarations.Reads mode pattern cursor (some (nodes, last)) →
    pattern.endsText = true → last.rest = []
  | .atEnd, _, _, _, _, h, _ => by
    generalize hreading : some _ = reading at h
    cases h with
    | atEnd =>
      split at hreading
      · rename_i hempty
        cases hreading
        exact List.isEmpty_iff.mp hempty
      · cases hreading
  | .call rule, _, _, _, _, h, hends => by
    cases of_decide_eq_true hends
    generalize hreading : some _ = reading at h
    cases h with
    | call h =>
      cases hreading
      have hatEnd : declarations.Reads _ .atEnd _ _ := h
      exact hatEnd.rest_eq_nil rfl
    | callFails => cases hreading
  | .seq _ _, _, _, _, _, h, hends => by
    obtain ⟨_, _, _, _, -, -, hsecond, -⟩ := h.of_seq
    exact hsecond.rest_eq_nil hends
  | .literal _, _, _, _, _, _, hends | .satisfy _, _, _, _, _, _, hends
  | .atStart, _, _, _, _, _, hends | .alt _ _, _, _, _, _, _, hends | .opt _, _, _, _, _, _, hends
  | .many _, _, _, _, _, _, hends | .ahead _, _, _, _, _, _, hends
  | .notAhead _, _, _, _, _, _, hends => by
    cases hends

/-- **What is parsed is the tree of the text**, for a rule that reads to the end. -/
theorem parse_eq_some_iff_isTree {rule : Rule} (hends : (ruleBody rule).endsText = true)
    {text : String} : declarations.parse rule text = some tree ↔ IsTree rule text tree := by
  rw [parse_eq_some_iff]
  refine exists_congr fun last => ⟨fun h => ⟨h, ?_⟩, And.left⟩
  obtain ⟨_, -, hbody⟩ := h.of_call nofun
  exact hbody.rest_eq_nil hends

theorem IsTree.unique {rule : Rule} {text : String} {other : Node} (h : IsTree rule text tree)
    (h' : IsTree rule text other) : tree = other := by
  obtain ⟨_, h, -⟩ := h
  obtain ⟨_, h', -⟩ := h'
  exact List.singleton_inj.mp (Prod.mk.inj (Option.some.inj (h.unique h'))).1

theorem parse_eq_none_iff {rule : Rule} (hends : (ruleBody rule).endsText = true)
    {text : String} : declarations.parse rule text = none ↔ ¬ Accepts rule text := by
  rw [Option.eq_none_iff_forall_ne_some]
  simp only [ne_eq, parse_eq_some_iff_isTree hends, Accepts, not_exists]

end GoStencil.Grammar
