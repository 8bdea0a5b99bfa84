import GoStencil.TypeExpr.Parser
import GoStencil.Proofs.Grammar.Words
import GoStencil.Proofs.TypeExpr.Reread

/-!
# How the forms of types are read

One lemma for each form of a type: when its parts are read from their texts, the form is read from
the texts put together.

* `Follows`: what may come after a type, so that it ends where it should.
* `TakesType`: a text is read as a type, whatever follows it.
* `refuses_of_begins`: a form is not read where none of its texts can begin.
-/

namespace GoStencil.Grammar

open Pattern

variable {input tail rest : List Char}

/-! ## 1. What comes next -/

/-- The characters that can come after a type and its gap. -/
def stops : List Char :=
  [')', ',', ']', ';', '\x7b', '\x7d', '"', '\x60', '\n']

/-- Whether a text is at its end or goes on with what can come after a type and its gap. -/
def isStop : List Char → Bool
  | [] => true
  | c :: _ => stops.contains c

/-- Whether a text is at its end or goes on with something that is no blank, no line end and no
    comment. -/
def isInked : List Char → Bool
  | [] => true
  | c :: _ => !(List.contains [' ', '\t', '\n', '\r', '/'] c)

theorem noGap_of_isInked (h : isInked input = true) : noGap input = true := by
  unfold noGap
  split <;> first | rfl | cases h

theorem noGap_of_isStop (h : isStop input = true) : noGap input = true := by
  unfold noGap
  split <;> first | rfl | cases h

theorem continues_of_isStop (h : isStop input = true) : continues input = false := by
  have hall : (stops.all fun c => !continues [c]) = true := by decide
  cases input with
  | nil => rfl
  | cons c rest =>
    have hc := List.all_eq_true.mp hall c (List.contains_iff_mem.mp h)
    exact Bool.not_eq_true' _ ▸ hc

theorem isInked_of_start {c : Char} {cs : List Char} (h : Text.isIdentifierStart c = true) :
    isInked (c :: cs) = true := by
  have hne : ∀ d, Text.isIdentifierStart d = false → c ≠ d := by
    rintro d hd rfl
    rw [h] at hd
    cases hd
  simp [isInked, hne ' ' (by decide), hne '\t' (by decide), hne '\n' (by decide),
    hne '\r' (by decide), hne '/' (by decide)]

/-- What may come after a type: the second text is what follows the gap. -/
structure Follows (tail rest : List Char) : Prop where
  skips : Skips tail rest
  stop : isStop rest = true
  word : continues tail = false
  dot : ∀ after, tail ≠ '.' :: after

theorem follows_of_isStop (h : isStop tail = true) : Follows tail tail := by
  refine ⟨skips_of_noGap (noGap_of_isStop h), h, continues_of_isStop h, ?_⟩
  rintro after rfl
  cases h

theorem follows_blank (h : isStop rest = true) : Follows (' ' :: rest) rest :=
  ⟨skips_blank (noGap_of_isStop h), h, rfl, nofun⟩

theorem Follows.skips_rest (h : Follows tail rest) : Skips rest rest :=
  skips_of_noGap (noGap_of_isStop h.stop)

/-! ## 2. Where forms begin -/

/-- The rules for the forms of a type that no name begins, in their order. -/
def namelessForms : List Rule :=
  [.pointerType, .sliceType, .arrayType, .mapType, .recvChanType, .chanType, .funcType,
   .structType, .interfaceType, .parenType]

/-- The rules for all forms of a type, in their order. -/
def typeForms : List Rule :=
  namelessForms ++ [.qualifiedIdent, .typeName]

/-- Whether a whole word is at the start of a text. -/
def isWordAt (word : String) (input : List Char) : Bool :=
  word.toList.isPrefixOf input && !continues (input.drop word.toList.length)

/-- Whether the first characters of a text allow for a form. -/
def begins (form : Rule) (input : List Char) : Bool :=
  match form with
  | .pointerType => ['*'].isPrefixOf input
  | .sliceType | .arrayType => ['['].isPrefixOf input
  | .recvChanType => ['<'].isPrefixOf input
  | .parenType => ['('].isPrefixOf input
  | .mapType => isWordAt "map" input
  | .chanType => isWordAt "chan" input
  | .funcType => isWordAt "func" input
  | .structType => isWordAt "struct" input
  | .interfaceType => isWordAt "interface" input
  | _ =>
    match input with
    | [] => false
    | c :: _ => Text.isIdentifierStart c

theorem refuses_of_isPrefixOf {s : String} {c : Char} {cs : List Char} (hs : s.toList = c :: cs)
    (h : [c].isPrefixOf input = false) : Refuses .spaced (text s) input := by
  refine refuses_text_of_head hs ?_
  rintro rest rfl
  simp at h

theorem refuses_keyword_of_isWordAt {rule : Rule} {word : String} (hkind : ruleKind rule = .token)
    (hbody : ruleBody rule = wholeWord word) (h : isWordAt word input = false) :
    Refuses .spaced (keyword rule word) input := by
  refine refuses_keyword hkind hbody ?_
  rintro rest rfl
  simpa [isWordAt] using h

/-- A form is not read where it cannot begin. -/
theorem refuses_of_begins {form : Rule} (hform : form ∈ typeForms)
    (h : begins form input = false) : Refuses .spaced (.call form) input := by
  have hident : (∀ c rest, input = c :: rest → Text.isIdentifierStart c = false) →
      ∀ mode, Refuses mode (.call .identifier) input :=
    fun hstart _ => refuses_identifier_of_start hstart
  simp only [typeForms, namelessForms, List.cons_append, List.nil_append, List.mem_cons,
    List.not_mem_nil, or_false] at hform
  rcases hform with rfl | rfl | rfl | rfl | rfl | rfl | rfl | rfl | rfl | rfl | rfl | rfl
  · exact Refuses.call (Refuses.seq (refuses_of_isPrefixOf rfl h))
  · exact Refuses.call (Refuses.seq (refuses_of_isPrefixOf rfl h))
  · exact Refuses.call (Refuses.seq (refuses_of_isPrefixOf rfl h))
  · exact Refuses.call (Refuses.seq (refuses_keyword_of_isWordAt rfl rfl h))
  · exact Refuses.call (Refuses.seq (refuses_of_isPrefixOf rfl h))
  · exact Refuses.call (Refuses.seq (refuses_keyword_of_isWordAt rfl rfl h))
  · exact Refuses.call (Refuses.seq (refuses_keyword_of_isWordAt rfl rfl h))
  · exact Refuses.call (Refuses.seq (refuses_keyword_of_isWordAt rfl rfl h))
  · exact Refuses.call (Refuses.seq (refuses_keyword_of_isWordAt rfl rfl h))
  · exact Refuses.call (Refuses.seq (refuses_of_isPrefixOf rfl h))
  · refine Refuses.call (Refuses.seq (hident ?_ _))
    rintro c rest rfl
    exact h
  · refine Refuses.call (hident ?_ _)
    rintro c rest rfl
    exact h

theorem takes_phrase (rule : Rule) {P : List Node → Prop} (hkind : ruleKind rule = .phrase)
    (h : Takes .spaced (ruleBody rule) input rest P) :
    Takes .spaced (.call rule) input rest (Makes rule P) :=
  Takes.call nofun (by rw [hkind]; exact h)

theorem takes_compound (rule : Rule) {P : List Node → Prop} (hkind : ruleKind rule = .compound)
    (h : Takes .tight (ruleBody rule) input rest P) :
    Takes .spaced (.call rule) input rest (Makes rule P) :=
  Takes.call nofun (by rw [hkind]; exact h)

theorem takes_tokenRule (rule : Rule) {cs : List Char} {P : List Node → Prop}
    (hkind : ruleKind rule = .token) (h : Takes .token (ruleBody rule) (cs ++ rest) rest P) :
    Takes .spaced (.call rule) (cs ++ rest) rest (Spells rule cs) :=
  Takes.call_spells nofun (by rw [hkind]; exact h)

/-- Whether there is one node, which stands for a type. -/
def Writes (type : TypeExpr) (nodes : List Node) : Prop :=
  ∃ node, nodes = [node] ∧ TypeExpr.ofNode node = .ok type

/-- Whether there is one node of the rule for all types, which stands for a type. -/
def WritesType (type : TypeExpr) (nodes : List Node) : Prop :=
  Makes .typeExpr (Writes type) nodes

theorem WritesType.exists_node {type : TypeExpr} {nodes : List Node}
    (h : WritesType type nodes) : ∃ start stop form,
      nodes = [⟨.typeExpr, start, stop, form⟩] ∧
        TypeExpr.ofNode ⟨.typeExpr, start, stop, form⟩ = .ok type := by
  obtain ⟨start, stop, _, rfl, node, rfl, hnode⟩ := h
  exact ⟨start, stop, [node], rfl, by rw [TypeExpr.ofNode, hnode]⟩

theorem WritesType.writes {type : TypeExpr} {nodes : List Node} (h : WritesType type nodes) :
    Writes type nodes := by
  obtain ⟨start, stop, form, rfl, hnode⟩ := h.exists_node
  exact ⟨_, rfl, hnode⟩

/-- **A type is read as its first form that can be read.** -/
theorem takes_typeExpr_of_refuses {type : TypeExpr} (before : List Rule) (form : Rule)
    {after : List Rule} (hforms : typeForms = before ++ form :: after)
    (hbefore : ∀ other ∈ before, Refuses .spaced (.call other) input)
    (h : Takes .spaced (.call form) input rest (Writes type)) :
    Takes .spaced (.call .typeExpr) input rest (WritesType type) := by
  refine takes_phrase .typeExpr rfl ?_
  have hbody : ruleBody .typeExpr =
      oneOf (before.map .call ++ .call form :: after.map .call) := by
    rw [← List.map_cons, ← List.map_append, ← hforms]
    rfl
  rw [hbody]
  refine takes_oneOf (fun pattern hmem => ?_) h
  obtain ⟨other, hother, rfl⟩ := List.mem_map.mp hmem
  exact hbefore other hother

theorem takes_typeExpr {type : TypeExpr} (before : List Rule) (form : Rule) {after : List Rule}
    (hforms : typeForms = before ++ form :: after)
    (hbefore : (before.all fun other => !begins other input) = true)
    (h : Takes .spaced (.call form) input rest (Writes type)) :
    Takes .spaced (.call .typeExpr) input rest (WritesType type) := by
  refine takes_typeExpr_of_refuses before form hforms (fun other hother => ?_) h
  refine refuses_of_begins ?_ (by simpa using List.all_eq_true.mp hbefore other hother)
  rw [hforms]
  exact List.mem_append_left _ hother

theorem refuses_typeExpr (h : (typeForms.all fun form => !begins form input) = true) :
    Refuses .spaced (.call .typeExpr) input := by
  refine Refuses.call ?_
  show Refuses .spaced (oneOf (typeForms.map .call)) input
  refine refuses_oneOf fun pattern hmem => ?_
  obtain ⟨form, hform, rfl⟩ := List.mem_map.mp hmem
  exact refuses_of_begins hform (by simpa using List.all_eq_true.mp h form hform)

/-- No type is read where one has ended. -/
theorem refuses_typeExpr_of_isStop (h : isStop input = true) :
    Refuses .spaced (.call .typeExpr) input := by
  cases input with
  | nil => exact refuses_typeExpr rfl
  | cons c rest =>
    have hmem := List.contains_iff_mem.mp h
    simp only [stops, List.mem_cons, List.not_mem_nil, or_false] at hmem
    refine refuses_typeExpr ?_
    rcases hmem with rfl | rfl | rfl | rfl | rfl | rfl | rfl | rfl | rfl <;> rfl

/-! ## 3. Forms -/

/-- A pattern that makes no nodes leaves those of the next. -/
theorem Joined.nil_left {P : List Node → Prop} {nodes : List Node}
    (h : Joined (· = []) P nodes) : P nodes := by
  obtain ⟨_, right, rfl, rfl, hright⟩ := h
  exact hright

theorem Joined.nil_right {P : List Node → Prop} {nodes : List Node}
    (h : Joined P (· = []) nodes) : P nodes := by
  obtain ⟨left, _, rfl, hleft, rfl⟩ := h
  rwa [List.append_nil]

theorem refuses_newline {mode : Mode} (h : isInked input = true) :
    Refuses mode newline input := by
  have hhead : ∀ c, isInked [c] = false → ∀ rest, input ≠ c :: rest := by
    rintro c hc rest rfl
    have hinked : isInked [c] = true := h
    rw [hc] at hinked
    cases hinked
  exact Refuses.alt (refuses_text_of_head rfl (hhead '\n' rfl))
    (Refuses.alt (refuses_text_of_head rfl (hhead '\r' rfl))
      (refuses_text_of_head rfl (hhead '\r' rfl)))

/-- No line ends are read where there are none. -/
theorem takes_newlines {mode : Mode} (h : isInked input = true) :
    Takes mode newlines input input (· = []) :=
  Refuses.many (refuses_newline h)

/-- Whether a text is not empty and begins with no gap, no line end and nothing that stands
    between two items. -/
def isOpening : List Char → Bool
  | [] => false
  | c :: _ => isInked [c] && c != ',' && c != ';'

theorem isOpening_of_start {c : Char} {cs : List Char} (h : Text.isIdentifierStart c = true) :
    isOpening (c :: cs) = true := by
  have hne : ∀ d, Text.isIdentifierStart d = false → (c != d) = true := by
    intro d hd
    rw [bne_iff_ne]
    rintro rfl
    rw [h] at hd
    cases hd
  have hinked : isInked [c] = true := isInked_of_start h
  rw [isOpening, hinked, hne ',' (by decide), hne ';' (by decide)]
  rfl

theorem isOpening_append {cs : List Char} (h : isOpening cs = true) :
    isOpening (cs ++ tail) = true := by
  cases cs with
  | nil => cases h
  | cons => exact h

theorem isInked_append {cs : List Char} (h : isOpening cs = true) :
    isInked (cs ++ tail) = true := by
  cases cs with
  | nil => cases h
  | cons =>
    simp only [isOpening, Bool.and_eq_true] at h
    exact h.1.1

/-- An item does not begin with what separates it from the one before. -/
theorem head_ne_append {cs : List Char} (h : isOpening cs = true) {d : Char}
    (hd : d = ',' ∨ d = ';') (after : List Char) : cs ++ tail ≠ d :: after := by
  cases cs with
  | nil => cases h
  | cons c cs =>
    simp only [isOpening, Bool.and_eq_true, bne_iff_ne, ne_eq] at h
    intro heq
    injection heq with hhead
    rcases hd with rfl | rfl
    · exact h.1.2 hhead
    · exact h.2 hhead

theorem skips_append {cs : List Char} (h : isOpening cs = true) :
    Skips (cs ++ tail) (cs ++ tail) :=
  skips_of_noGap (noGap_of_isInked (isInked_append h))

/-- Whether a text is what a pattern reads, when what follows it fits: `fits tail rest` is about
    what follows it, and what follows the gap after it. -/
structure TakesBefore (fits : List Char → List Char → Prop) (pattern : Pattern) (cs : List Char)
    (P : List Node → Prop) : Prop where
  opens : isOpening cs = true
  takes : ∀ {tail rest : List Char}, fits tail rest → ∃ stop, Skips stop rest ∧
    Takes .spaced pattern (cs ++ tail) stop P

theorem TakesBefore.mono {fits fits' : List Char → List Char → Prop} {pattern : Pattern}
    {cs : List Char} {P : List Node → Prop} (h : TakesBefore fits pattern cs P)
    (hfits : ∀ {tail rest : List Char}, fits' tail rest → fits tail rest) :
    TakesBefore fits' pattern cs P :=
  ⟨h.opens, fun hfollows => h.takes (hfits hfollows)⟩

/-- Whether a text is read as a type, whatever may come after types. -/
abbrev TakesType (cs : List Char) (type : TypeExpr) : Prop :=
  TakesBefore Follows (.call .typeExpr) cs (WritesType type)

namespace TakesType

variable {cs ds : List Char} {type other : TypeExpr}

/-- A type whose text ends before a given one. -/
theorem before (h : TakesType cs type) (hstop : isStop tail = true) :
    ∃ stop, Skips stop tail ∧
      Takes .spaced (.call .typeExpr) (cs ++ tail) stop (WritesType type) :=
  h.takes (follows_of_isStop hstop)

theorem pointer (h : TakesType cs type) : TakesType ('*' :: cs) (.pointer type) := by
  refine ⟨rfl, fun {tail rest} hfollows => ?_⟩
  obtain ⟨stop, hskips, helem⟩ := h.takes hfollows
  have hbody : Takes .spaced (ruleBody .pointerType) ('*' :: (cs ++ tail)) stop _ :=
    Takes.seq (takes_text .spaced "*" _) (skips_append h.opens) helem
  refine ⟨stop, hskips, takes_typeExpr [] .pointerType rfl rfl ?_⟩
  refine (takes_phrase .pointerType rfl hbody).imp ?_
  rintro _ ⟨_, _, children, rfl, hchildren⟩
  obtain ⟨node, rfl, hnode⟩ := hchildren.nil_left.writes
  exact ⟨_, rfl, by rw [TypeExpr.ofNode, hnode]; rfl⟩

theorem slice (h : TakesType cs type) : TakesType ('[' :: ']' :: cs) (.array none type) := by
  refine ⟨rfl, fun {tail rest} hfollows => ?_⟩
  obtain ⟨stop, hskips, helem⟩ := h.takes hfollows
  have hbody : Takes .spaced (ruleBody .sliceType) ('[' :: ']' :: (cs ++ tail)) stop _ :=
    Takes.seq (takes_text .spaced "[" _) (skips_of_noGap rfl)
      (Takes.seq (takes_text .spaced "]" _) (skips_append h.opens) helem)
  refine ⟨stop, hskips, takes_typeExpr [.pointerType] .sliceType rfl rfl ?_⟩
  refine (takes_phrase .sliceType rfl hbody).imp ?_
  rintro _ ⟨_, _, children, rfl, hchildren⟩
  obtain ⟨node, rfl, hnode⟩ := hchildren.nil_left.nil_left.writes
  exact ⟨_, rfl, by rw [TypeExpr.ofNode, hnode]; rfl⟩

theorem map (hkey : TakesType cs type) (hvalue : TakesType ds other) :
    TakesType ('m' :: 'a' :: 'p' :: '[' :: (cs ++ ']' :: ds)) (.map type other) := by
  refine ⟨rfl, fun {tail rest} hfollows => ?_⟩
  obtain ⟨stop, hskips, htakesValue⟩ := hvalue.takes hfollows
  obtain ⟨mid, hmid, htakesKey⟩ := hkey.before (rfl : isStop (']' :: (ds ++ tail)) = true)
  have hbody : Takes .spaced (ruleBody .mapType)
      ('m' :: 'a' :: 'p' :: '[' :: (cs ++ ']' :: (ds ++ tail))) stop _ :=
    Takes.seq (takes_keyword rfl rfl rfl rfl) (skips_of_noGap rfl)
      (Takes.seq (takes_text .spaced "[" _) (skips_append hkey.opens)
        (Takes.seq htakesKey hmid
          (Takes.seq (takes_text .spaced "]" _) (skips_append hvalue.opens) htakesValue)))
  have htext : 'm' :: 'a' :: 'p' :: '[' :: (cs ++ ']' :: ds) ++ tail =
      'm' :: 'a' :: 'p' :: '[' :: (cs ++ ']' :: (ds ++ tail)) := by
    simp only [List.cons_append, List.append_assoc]
  rw [htext]
  refine ⟨stop, hskips,
    takes_typeExpr [.pointerType, .sliceType, .arrayType] .mapType rfl rfl ?_⟩
  refine (takes_phrase .mapType rfl hbody).imp ?_
  rintro _ ⟨_, _, children, rfl, hchildren⟩
  obtain ⟨_, _, rfl, hleft, hright⟩ := hchildren.nil_left.nil_left
  obtain ⟨keyNode, rfl, hkeyNode⟩ := hleft.writes
  obtain ⟨valueNode, rfl, hvalueNode⟩ := hright.nil_left.writes
  exact ⟨_, rfl, by
    rw [List.cons_append, List.nil_append, TypeExpr.ofNode, hkeyNode, hvalueNode]
    rfl⟩

theorem paren (h : TakesType cs type) : TakesType ('(' :: (cs ++ [')'])) (.paren type) := by
  refine ⟨rfl, fun {tail rest} hfollows => ?_⟩
  obtain ⟨mid, hmid, htakes⟩ := h.before (rfl : isStop (')' :: tail) = true)
  have hinked : isInked (cs ++ ')' :: tail) = true := isInked_append h.opens
  have hbody : Takes .spaced (ruleBody .parenType) ('(' :: (cs ++ ')' :: tail)) tail _ :=
    Takes.seq (takes_text .spaced "(" _) (skips_append h.opens)
      (Takes.seq (takes_newlines hinked) (skips_append h.opens)
        (Takes.seq htakes hmid
          (Takes.seq (takes_newlines rfl) (skips_of_noGap rfl) (takes_text .spaced ")" tail))))
  have htext : '(' :: (cs ++ [')']) ++ tail = '(' :: (cs ++ ')' :: tail) := by
    simp only [List.cons_append, List.append_assoc, List.nil_append]
  rw [htext]
  refine ⟨tail, hfollows.skips, takes_typeExpr [.pointerType, .sliceType, .arrayType, .mapType,
    .recvChanType, .chanType, .funcType, .structType, .interfaceType] .parenType rfl rfl ?_⟩
  refine (takes_phrase .parenType rfl hbody).imp ?_
  rintro _ ⟨_, _, children, rfl, hchildren⟩
  obtain ⟨_, _, rfl, hinner, -⟩ := hchildren.nil_left.nil_left
  obtain ⟨node, rfl, hnode⟩ := hinner.writes
  exact ⟨_, rfl, by rw [List.cons_append, TypeExpr.ofNode, hnode]; rfl⟩

theorem receive (h : TakesType cs type) :
    TakesType ("<-chan ".toList ++ cs) (.channel .receive type) := by
  refine ⟨rfl, fun {tail rest} hfollows => ?_⟩
  obtain ⟨stop, hskips, htakes⟩ := h.takes hfollows
  have hbody : Takes .spaced (ruleBody .recvChanType)
      ('<' :: '-' :: 'c' :: 'h' :: 'a' :: 'n' :: ' ' :: (cs ++ tail)) stop _ :=
    Takes.seq (takes_text .spaced "<-" _) (skips_of_noGap rfl)
      (Takes.seq (takes_keyword rfl rfl rfl rfl)
        (skips_blank (noGap_of_isInked (isInked_append h.opens))) htakes)
  refine ⟨stop, hskips, takes_typeExpr [.pointerType, .sliceType, .arrayType, .mapType]
    .recvChanType rfl rfl ?_⟩
  refine (takes_phrase .recvChanType rfl hbody).imp ?_
  rintro _ ⟨_, _, children, rfl, hchildren⟩
  obtain ⟨node, rfl, hnode⟩ := hchildren.nil_left.nil_left.writes
  exact ⟨_, rfl, by rw [TypeExpr.ofNode, hnode]; rfl⟩

theorem send (h : TakesType cs type) :
    TakesType ("chan<- ".toList ++ cs) (.channel .send type) := by
  refine ⟨rfl, fun {tail rest} hfollows => ?_⟩
  obtain ⟨stop, hskips, htakes⟩ := h.takes hfollows
  have harrow : Takes .spaced (.call .sendArrow) ('<' :: '-' :: ' ' :: (cs ++ tail))
      (' ' :: (cs ++ tail)) _ :=
    takes_phrase .sendArrow rfl (takes_text .spaced "<-" _)
  have hbody : Takes .spaced (ruleBody .chanType)
      ('c' :: 'h' :: 'a' :: 'n' :: '<' :: '-' :: ' ' :: (cs ++ tail)) stop _ :=
    Takes.seq (takes_keyword rfl rfl rfl rfl) (skips_of_noGap rfl)
      (Takes.seq harrow.opt (skips_blank (noGap_of_isInked (isInked_append h.opens))) htakes)
  refine ⟨stop, hskips, takes_typeExpr [.pointerType, .sliceType, .arrayType, .mapType,
    .recvChanType] .chanType rfl rfl ?_⟩
  refine (takes_phrase .chanType rfl hbody).imp ?_
  rintro _ ⟨_, _, children, rfl, hchildren⟩
  obtain ⟨_, _, rfl, ⟨_, _, _, rfl, -⟩, hvalue⟩ := hchildren.nil_left
  obtain ⟨node, rfl, hnode⟩ := hvalue.writes
  exact ⟨_, rfl, by rw [List.cons_append, List.nil_append, TypeExpr.ofNode, hnode]; rfl⟩

/-- The arrow of a receive channel would be taken for that of a send channel. -/
theorem both (h : TakesType cs type) (harrow : ∀ tail after, cs ++ tail ≠ '<' :: after) :
    TakesType ("chan ".toList ++ cs) (.channel .both type) := by
  refine ⟨rfl, fun {tail rest} hfollows => ?_⟩
  obtain ⟨stop, hskips, htakes⟩ := h.takes hfollows
  have hnone : Refuses .spaced (.call .sendArrow) (cs ++ tail) :=
    Refuses.call (refuses_text_of_head rfl (harrow tail))
  have hbody : Takes .spaced (ruleBody .chanType)
      ('c' :: 'h' :: 'a' :: 'n' :: ' ' :: (cs ++ tail)) stop _ :=
    Takes.seq (takes_keyword rfl rfl rfl rfl)
      (skips_blank (noGap_of_isInked (isInked_append h.opens)))
      (Takes.seq hnone.opt (skips_append h.opens) htakes)
  refine ⟨stop, hskips, takes_typeExpr [.pointerType, .sliceType, .arrayType, .mapType,
    .recvChanType] .chanType rfl rfl ?_⟩
  refine (takes_phrase .chanType rfl hbody).imp ?_
  rintro _ ⟨_, _, children, rfl, hchildren⟩
  obtain ⟨_, _, _, rfl, hnode⟩ := hchildren.nil_left.nil_left.exists_node
  refine ⟨_, rfl, ?_⟩
  simp only [TypeExpr.ofNode, hnode]
  rfl

end TakesType

/-! ## 4. Names and lengths -/

theorem text_of_spells {rule : Rule} {s : String} {nodes : List Node}
    (h : Spells rule s.toList nodes) :
    ∃ node, nodes = [node] ∧ node.rule = rule ∧ node.text = s := by
  obtain ⟨start, stop, children, rfl, hchars⟩ := h
  refine ⟨_, rfl, rfl, ?_⟩
  rw [Node.text, Node.chars, hchars, String.ofList_toList]

/-- The only forms that begin with a name are the last two. -/
theorem begins_of_isName {ident : String} (hident : isName ident = true)
    (h : continues rest = false) :
    ∀ form ∈ namelessForms, begins form (ident.toList ++ rest) = false := by
  obtain ⟨c, cs, hchars, hstart, -, -⟩ := isName_iff.mp hident
  have hsymbol : ∀ d, Text.isIdentifierStart d = false →
      [d].isPrefixOf (ident.toList ++ rest) = false := by
    intro d hd
    rw [hchars]
    have hne : (d == c) = false := by
      rw [beq_eq_false_iff_ne]
      rintro rfl
      rw [hstart] at hd
      cases hd
    simp [List.isPrefixOf, hne]
  have hword : ∀ word ∈ reservedWords, isWordAt word (ident.toList ++ rest) = false := by
    intro word hmem
    by_cases hprefix : word.toList <+: ident.toList ++ rest
    · obtain ⟨rest', hrest'⟩ := hprefix
      have hcontinues := continues_of_isName hident h hmem hrest'.symm
      simp [isWordAt, ← hrest', hcontinues]
    · simp [isWordAt, hprefix]
  intro form hform
  simp only [namelessForms, List.mem_cons, List.not_mem_nil, or_false] at hform
  rcases hform with rfl | rfl | rfl | rfl | rfl | rfl | rfl | rfl | rfl | rfl
  · exact hsymbol '*' (by decide)
  · exact hsymbol '[' (by decide)
  · exact hsymbol '[' (by decide)
  · exact hword "map" (by decide)
  · exact hsymbol '<' (by decide)
  · exact hword "chan" (by decide)
  · exact hword "func" (by decide)
  · exact hword "struct" (by decide)
  · exact hword "interface" (by decide)
  · exact hsymbol '(' (by decide)

theorem isOpening_of_isName {ident : String} (hident : isName ident = true) :
    isOpening ident.toList = true := by
  obtain ⟨c, cs, hchars, hstart, -, -⟩ := isName_iff.mp hident
  rw [hchars]
  exact isOpening_of_start hstart

theorem head_ne_of_isName {ident : String} {d : Char} (hident : isName ident = true)
    (hd : Text.isIdentifierStart d = false) (after : List Char) :
    ident.toList ++ tail ≠ d :: after := by
  obtain ⟨c, cs, hchars, hstart, -, -⟩ := isName_iff.mp hident
  rw [hchars]
  intro h
  injection h with hhead
  rw [hhead, hd] at hstart
  cases hstart

theorem takes_typeName {ident : String} (hident : isName ident = true)
    (h : continues rest = false) :
    Takes .spaced (.call .typeName) (ident.toList ++ rest) rest (Writes (.name ident)) := by
  have hbody : Takes .spaced (ruleBody .typeName) (ident.toList ++ rest) rest _ :=
    takes_identifier nofun hident h
  refine (takes_phrase .typeName rfl hbody).imp ?_
  rintro _ ⟨_, _, children, rfl, hchildren⟩
  obtain ⟨node, rfl, -, htext⟩ := text_of_spells hchildren
  exact ⟨_, rfl, by rw [TypeExpr.ofNode, htext]⟩

/-- A name is no qualified name where no dot follows. -/
theorem refuses_qualifiedIdent {ident : String} (hident : isName ident = true)
    (h : continues rest = false) (hdot : ∀ after, rest ≠ '.' :: after) :
    Refuses .spaced (.call .qualifiedIdent) (ident.toList ++ rest) :=
  Refuses.call (Takes.seq_refuses (takes_identifier nofun hident h) (skipsIn_tight rest)
    (Refuses.seq (refuses_text_of_head rfl hdot)))

theorem takes_qualifiedIdent {package ident : String} (hpackage : isName package = true)
    (hident : isName ident = true) (h : continues rest = false) :
    Takes .spaced (.call .qualifiedIdent) (package.toList ++ '.' :: (ident.toList ++ rest)) rest
      (Writes (.qualified package ident)) := by
  have hbody : Takes .tight (ruleBody .qualifiedIdent)
      (package.toList ++ '.' :: (ident.toList ++ rest)) rest _ :=
    Takes.seq (takes_identifier nofun hpackage rfl) (skipsIn_tight _)
      (Takes.seq (takes_text .tight "." _) (skipsIn_tight _) (takes_identifier nofun hident h))
  refine (takes_compound .qualifiedIdent rfl hbody).imp ?_
  rintro _ ⟨_, _, children, rfl, _, _, rfl, hleft, hright⟩
  obtain ⟨first, rfl, -, hfirst⟩ := text_of_spells hleft
  obtain ⟨second, rfl, -, hsecond⟩ := text_of_spells hright.nil_left
  exact ⟨_, rfl, by rw [List.cons_append, List.nil_append, TypeExpr.ofNode, hfirst, hsecond]⟩

theorem refuses_namelessForms {ident : String} (hident : isName ident = true)
    (h : continues rest = false) :
    ∀ form ∈ namelessForms, Refuses .spaced (.call form) (ident.toList ++ rest) :=
  fun form hform => refuses_of_begins (List.mem_append_left _ hform)
    (begins_of_isName hident h form hform)

theorem takesType_name {ident : String} (hident : isName ident = true) :
    TakesType ident.toList (.name ident) := by
  refine ⟨isOpening_of_isName hident, fun {tail rest} hfollows => ⟨tail, hfollows.skips, ?_⟩⟩
  refine takes_typeExpr_of_refuses (namelessForms ++ [.qualifiedIdent]) .typeName rfl
    (fun other hother => ?_) (takes_typeName hident hfollows.word)
  rcases List.mem_append.mp hother with hother | hother
  · exact refuses_namelessForms hident hfollows.word other hother
  · cases List.mem_singleton.mp hother
    exact refuses_qualifiedIdent hident hfollows.word hfollows.dot

theorem takesType_qualified {package ident : String} (hpackage : isName package = true)
    (hident : isName ident = true) :
    TakesType (package.toList ++ '.' :: ident.toList) (.qualified package ident) := by
  refine ⟨isOpening_append (isOpening_of_isName hpackage), fun {tail rest} hfollows =>
    ⟨tail, hfollows.skips, ?_⟩⟩
  rw [List.append_assoc, List.cons_append]
  exact takes_typeExpr_of_refuses namelessForms .qualifiedIdent rfl
    (refuses_namelessForms hpackage rfl) (takes_qualifiedIdent hpackage hident hfollows.word)

/-! ### Lengths of arrays -/

theorem length_dropBlankEnd_le : ∀ cs : List Char, (Text.dropBlankEnd cs).length ≤ cs.length
  | [] => Nat.le_refl _
  | c :: cs => by
    have ih := length_dropBlankEnd_le cs
    unfold Text.dropBlankEnd
    split
    · split
      · exact Nat.zero_le _
      · exact Nat.le_add_left 1 cs.length
    · rename_i hkept
      rw [List.length_cons, List.length_cons]
      omega

/-- A text without blank ends does not begin with a blank. -/
theorem isBlank_of_trim_eq {s : String} {c : Char} {cs : List Char} (hs : s.toList = c :: cs)
    (h : Text.trim s = s) : Text.isBlank c = false := by
  cases hblank : Text.isBlank c with
  | false => rfl
  | true =>
    have hlength := congrArg (fun s : String => s.toList.length) h
    have hdrop : Text.dropBlank (c :: cs) = Text.dropBlank cs :=
      List.dropWhile_cons_of_pos hblank
    simp only [Text.trim, String.toList_ofList, hs, hdrop, List.length_cons] at hlength
    have hend := length_dropBlankEnd_le (Text.dropBlank cs)
    have hstart : (Text.dropBlank cs).length ≤ cs.length :=
      (List.dropWhile_sublist _).length_le
    omega

section Length

variable {length : String} (hlength : isArrayLength length = true)

include hlength

theorem exists_of_isArrayLength : ∃ c cs, length.toList = c :: cs ∧
    (∀ d ∈ c :: cs, d ≠ ']' ∧ d ≠ '\n' ∧ d ≠ '\r') ∧
    (∀ after, noGap (c :: (cs ++ ']' :: after)) = true) ∧ Text.trim length = length := by
  simp only [isArrayLength, Bool.and_eq_true, Bool.not_eq_true', beq_iff_eq, List.all_eq_true,
    bne_iff_ne, ne_eq] at hlength
  obtain ⟨⟨⟨⟨hne, htrim⟩, hall⟩, hline⟩, hblock⟩ := hlength
  cases hchars : length.toList with
  | nil =>
    rw [hchars] at hne
    cases hne
  | cons c cs =>
    rw [hchars] at hall hline hblock
    refine ⟨c, cs, rfl, fun d hd => ?_, fun after => ?_, htrim⟩
    · obtain ⟨⟨hbracket, hfeed⟩, hreturn⟩ := hall d hd
      exact ⟨hbracket, hfeed, hreturn⟩
    · have hblank := isBlank_of_trim_eq hchars htrim
      unfold noGap
      split
      · rename_i h
        cases h
        cases hblank
      · rename_i h
        cases h
        cases hblank
      · rename_i h
        cases cs with
        | nil => cases h
        | cons =>
          cases h
          cases hline
      · rename_i h
        cases cs with
        | nil => cases h
        | cons =>
          cases h
          cases hblock
      · rfl

theorem takes_arrayLen (rest : List Char) :
    Takes .spaced (.call .arrayLen) (length.toList ++ ']' :: rest) (']' :: rest)
      (Spells .arrayLen length.toList) := by
  obtain ⟨c, cs, hchars, hall, -, -⟩ := exists_of_isArrayLength hlength
  have hplain : ∀ d ∈ c :: cs, ∀ rest,
      Takes .token (anyCharBut (oneOf [text "]", newline])) (d :: rest) rest fun _ => True := by
    intro d hd rest
    obtain ⟨hbracket, hfeed, hreturn⟩ := hall d hd
    have hhead : ∀ e, d ≠ e → ∀ rest', d :: rest ≠ e :: rest' := by
      rintro e hne rest' h
      cases h
      exact hne rfl
    refine takes_anyCharBut skipsIn_token (Refuses.alt (refuses_text_of_head rfl (hhead _ hbracket))
      (Refuses.alt (refuses_text_of_head rfl (hhead _ hfeed)) (Refuses.alt
        (refuses_text_of_head rfl (hhead _ hreturn)) (refuses_text_of_head rfl (hhead _ hreturn)))))
  have hend : Refuses .token (anyCharBut (oneOf [text "]", newline])) (']' :: rest) :=
    refuses_anyCharBut (Takes.alt (takes_text .token "]" rest))
  have hmany := takes_many_chars (fun d hd => hplain d (List.mem_cons_of_mem _ hd)) hend
  have hbody : Takes .token (ruleBody .arrayLen) (c :: cs ++ ']' :: rest) (']' :: rest) _ :=
    Takes.seq (hplain c List.mem_cons_self (cs ++ ']' :: rest)) (skipsIn_token _) hmany
  rw [← hchars] at hbody
  exact takes_tokenRule .arrayLen rfl hbody

theorem TakesType.array {cs : List Char} {type : TypeExpr} (h : TakesType cs type) :
    TakesType ('[' :: (length.toList ++ ']' :: cs)) (.array (some length) type) := by
  refine ⟨rfl, fun {tail rest} hfollows => ?_⟩
  obtain ⟨stop, hskips, helem⟩ := h.takes hfollows
  obtain ⟨c, ls, hchars, hall, hgap, htrim⟩ := exists_of_isArrayLength hlength
  have hskipsLength : Skips (length.toList ++ ']' :: (cs ++ tail))
      (length.toList ++ ']' :: (cs ++ tail)) := by
    rw [hchars]
    exact skips_of_noGap (hgap (cs ++ tail))
  have hbody : Takes .spaced (ruleBody .arrayType)
      ('[' :: (length.toList ++ ']' :: (cs ++ tail))) stop _ :=
    Takes.seq (takes_text .spaced "[" _) hskipsLength
      (Takes.seq (takes_arrayLen hlength _) (skips_of_noGap rfl)
        (Takes.seq (takes_text .spaced "]" _) (skips_append h.opens) helem))
  have hslice : Refuses .spaced (.call .sliceType)
      ('[' :: (length.toList ++ ']' :: (cs ++ tail))) := by
    refine Refuses.call (Takes.seq_refuses (takes_text .spaced "[" _) hskipsLength
      (Refuses.seq (refuses_text_of_head rfl ?_)))
    rintro after hafter
    rw [hchars] at hafter
    cases hafter
    exact (hall ']' List.mem_cons_self).1 rfl
  have htext : '[' :: (length.toList ++ ']' :: cs) ++ tail =
      '[' :: (length.toList ++ ']' :: (cs ++ tail)) := by
    simp only [List.cons_append, List.append_assoc]
  rw [htext]
  refine ⟨stop, hskips, takes_typeExpr_of_refuses [.pointerType, .sliceType] .arrayType rfl ?_ ?_⟩
  · intro other hother
    rcases List.mem_cons.mp hother with rfl | hother
    · exact refuses_of_begins (by decide) rfl
    · cases List.mem_singleton.mp hother
      exact hslice
  refine (takes_phrase .arrayType rfl hbody).imp ?_
  rintro _ ⟨_, _, children, rfl, hchildren⟩
  obtain ⟨_, _, rfl, hleft, hright⟩ := hchildren.nil_left
  obtain ⟨lengthNode, rfl, -, htext⟩ := text_of_spells hleft
  obtain ⟨node, rfl, hnode⟩ := hright.nil_left.writes
  refine ⟨_, rfl, ?_⟩
  rw [List.cons_append, List.nil_append, TypeExpr.ofNode, htext, htrim, hnode]
  rfl

end Length

end GoStencil.Grammar
