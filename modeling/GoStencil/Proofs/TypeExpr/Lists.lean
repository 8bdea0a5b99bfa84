import GoStencil.Proofs.TypeExpr.Forms

/-!
# How lists of entries are read

Names, parameters, fields and members stand in lists with a separator between two items. What may
follow an item depends on the list: a list of names goes on as long as names follow.

* `takes_many_items`: all items after the first one are read.
* `takes_identifierList`: names are read as a list of names.
* `takesParameters`: entries in parentheses are read as parameters.
* `takesBefore_signature`: parameters and results are read as a signature.
-/

namespace GoStencil.Grammar

open Pattern

variable {input tail rest : List Char}

/-! ## 1. Items after the first -/

/-- Some texts, each after the separator. -/
def trailing {α : Type} (separator : List Char) (write : α → List Char) (items : List α) :
    List Char :=
  items.flatMap fun item => separator ++ write item

theorem toList_intercalate_cons (separator first : String) (items : List String) :
    (separator.intercalate (first :: items)).toList =
      first.toList ++ items.flatMap fun item => separator.toList ++ item.toList := by
  induction items generalizing first with
  | nil => simp
  | cons item items ih =>
    rw [String.intercalate_cons_cons, String.toList_append, String.toList_append, ih,
      List.flatMap_cons, List.append_assoc, List.append_assoc]

/-- Whether nodes have been made for items, in their order. -/
def Each {α : Type} (P : α → List Node → Prop) : List α → List Node → Prop
  | [] => (· = [])
  | item :: items => Joined (P item) (Each P items)

theorem Joined.nil {P : List Node → Prop} {nodes : List Node} (h : P nodes) :
    Joined P (· = []) nodes :=
  ⟨nodes, [], (List.append_nil nodes).symm, h, rfl⟩

section Items

variable {α : Type} {round pattern : Pattern} {P : α → List Node → Prop} {items : List α}

/-- **All items that follow are read**, when one round reads a separator and an item. What may come
    after an item depends on the items that come after it. -/
theorem takes_many_each {fits : List α → List Char → List Char → Prop} (separator : List Char)
    (write : α → List Char)
    (hround : ∀ {more : List α} {cs : List Char} {Q : List Node → Prop} {tail rest : List Char},
      TakesBefore (fits more) pattern cs Q → fits more tail rest → ∃ stop, Skips stop rest ∧
        Takes .spaced round (separator ++ (cs ++ tail)) stop Q)
    (hitems : ∀ item more, item :: more <:+ items →
      TakesBefore (fits more) pattern (write item) (P item))
    (hfits : ∀ item more, item :: more <:+ items → ∀ {tail rest : List Char}, fits more tail rest →
      fits (item :: more) (separator ++ (write item ++ tail)) (separator ++ (write item ++ tail)))
    (hlast : fits [] tail rest) (hskips : Skips rest rest) (hrest : Refuses .spaced round rest) :
    ∃ next stop, fits items (trailing separator write items ++ tail) next ∧ Skips stop rest ∧
      Takes .spaced (.many round) next stop (Each P items) ∧
      (items = [] ∧ next = rest ∨ ∃ mid Q, Takes .spaced round next mid Q) := by
  induction items with
  | nil => exact ⟨rest, rest, hlast, hskips, hrest.many, .inl ⟨rfl, rfl⟩⟩
  | cons item items ih =>
    obtain ⟨next, stop, hnext, hstop, hmany, hmore⟩ :=
      ih (fun other more hsuffix => hitems other more (hsuffix.trans (List.suffix_cons _ _)))
        (fun other more hsuffix => hfits other more (hsuffix.trans (List.suffix_cons _ _)))
    obtain ⟨mid, hmid, htakes⟩ := hround (hitems item items List.suffix_rfl) hnext
    have htext : trailing separator write (item :: items) ++ tail =
        separator ++ (write item ++ (trailing separator write items ++ tail)) := by
      simp only [trailing, List.flatMap_cons, List.append_assoc]
    rw [htext]
    have hwhole := hfits item items List.suffix_rfl hnext
    rcases hmore with ⟨rfl, rfl⟩ | ⟨again, Q, hagain⟩
    · have hlastRound : Takes .spaced (.many round) _ mid (Each P [item]) :=
        (htakes.many_last hmid hrest).imp fun _ => Joined.nil
      exact ⟨_, mid, hwhole, hmid, hlastRound, .inr ⟨mid, _, htakes⟩⟩
    · exact ⟨_, stop, hwhole, hstop, htakes.many_more hmid hagain hmany, .inr ⟨mid, _, htakes⟩⟩

/-- All items are read when the same may come after each of them, among this another item. -/
theorem takes_many_items {fits : List Char → List Char → Prop} (separator : List Char)
    (write : α → List Char)
    (hround : ∀ {cs : List Char} {Q : List Node → Prop} {tail rest : List Char},
      TakesBefore fits pattern cs Q → fits tail rest → ∃ stop, Skips stop rest ∧
        Takes .spaced round (separator ++ (cs ++ tail)) stop Q)
    (hitems : ∀ item ∈ items, TakesBefore fits pattern (write item) (P item))
    (hfits : ∀ item ∈ items, ∀ {tail rest : List Char}, fits tail rest →
      fits (separator ++ (write item ++ tail)) (separator ++ (write item ++ tail)))
    (hlast : fits tail rest) (hskips : Skips rest rest) (hrest : Refuses .spaced round rest) :
    ∃ next stop, fits (trailing separator write items ++ tail) next ∧ Skips stop rest ∧
      Takes .spaced (.many round) next stop (Each P items) := by
  obtain ⟨next, stop, hnext, hstop, hmany, -⟩ :=
    @takes_many_each tail rest α round pattern P items (fun _ => fits) separator write hround
      (fun item _ hsuffix => hitems item (hsuffix.subset List.mem_cons_self))
      (fun item _ hsuffix => hfits item (hsuffix.subset List.mem_cons_self)) hlast hskips hrest
  exact ⟨next, stop, hnext, hstop, hmany⟩

end Items

/-- A comma and another item. -/
def commaRound (pattern : Pattern) : Pattern :=
  inOrder [text ",", newlines, pattern]

theorem takes_commaRound {pattern : Pattern} {cs stop : List Char} {P : List Node → Prop}
    (hopens : isOpening cs = true) (h : Takes .spaced pattern (cs ++ tail) stop P) :
    Takes .spaced (commaRound pattern) ([',', ' '] ++ (cs ++ tail)) stop P := by
  have hinked : isInked (cs ++ tail) = true := isInked_append hopens
  have hround : Takes .spaced (commaRound pattern) (',' :: ' ' :: (cs ++ tail)) stop _ :=
    Takes.seq (takes_text .spaced "," _) (skips_blank (noGap_of_isInked hinked))
      (Takes.seq (takes_newlines hinked) (skips_append hopens) h)
  exact hround.imp fun _ hnodes => hnodes.nil_left.nil_left

theorem refuses_commaRound {pattern : Pattern} (h : ∀ after, input ≠ ',' :: after) :
    Refuses .spaced (commaRound pattern) input :=
  Refuses.seq (refuses_text_of_head rfl h)

/-! ## 2. Names -/

/-- Whether a node stands for a list of names. -/
def Lists (names : List String) (nodes : List Node) : Prop :=
  ∃ node, nodes = [node] ∧ identifiersOf node = names

/-- What may come after a name: the second text is what follows the gap. -/
def FollowsName (tail rest : List Char) : Prop :=
  continues tail = false ∧ Skips tail rest

theorem takesBefore_identifier {ident : String} (hident : isName ident = true) :
    TakesBefore FollowsName (.call .identifier) ident.toList
      (Spells .identifier ident.toList) :=
  ⟨isOpening_of_isName hident, fun hfollows =>
    ⟨_, hfollows.2, takes_identifier nofun hident hfollows.1⟩⟩

theorem map_text_of_each {names : List String} {nodes : List Node}
    (h : Each (fun name : String => Spells .identifier name.toList) names nodes) :
    nodes.map Node.text = names := by
  induction names generalizing nodes with
  | nil =>
    cases h
    rfl
  | cons name names ih =>
    obtain ⟨_, right, rfl, hleft, hright⟩ := h
    obtain ⟨node, rfl, -, htext⟩ := text_of_spells hleft
    rw [List.map_append, ih hright, List.map_singleton, htext]
    rfl

/-- **Names are read as a list of names**, up to what is no further name. -/
theorem takes_identifierList {first : String} {names : List String}
    (hfirst : isName first = true) (hnames : ∀ name ∈ names, isName name = true)
    (hlast : FollowsName tail rest) (hskips : Skips rest rest)
    (hrest : ∀ after, rest ≠ ',' :: after) :
    ∃ stop, Skips stop rest ∧ Takes .spaced (.call .identifierList)
      (first.toList ++ (trailing [',', ' '] String.toList names ++ tail)) stop
      (Lists (first :: names)) := by
  obtain ⟨next, stop, hnext, hstop, hmany⟩ := takes_many_items [',', ' '] String.toList
    (fun hitem hfits => by
      obtain ⟨stop, hstop, htakes⟩ := hitem.takes hfits
      exact ⟨stop, hstop, takes_commaRound hitem.opens htakes⟩)
    (fun name hname => takesBefore_identifier (hnames name hname))
    (fun _ _ _ _ _ => ⟨rfl, skips_of_noGap rfl⟩) hlast hskips (refuses_commaRound hrest)
  have hbody : Takes .spaced (ruleBody .identifierList)
      (first.toList ++ (trailing [',', ' '] String.toList names ++ tail)) stop _ :=
    Takes.seq (takes_identifier nofun hfirst hnext.1) hnext.2 hmany
  refine ⟨stop, hstop, (takes_phrase .identifierList rfl hbody).imp ?_⟩
  rintro _ ⟨_, _, children, rfl, hchildren⟩
  refine ⟨_, rfl, ?_⟩
  have hall : Each (fun name : String => Spells .identifier name.toList) (first :: names)
      children := hchildren
  exact map_text_of_each hall

/-! ## 3. Parameters -/

/-- Whether a reader of entries makes the given entry of the first nodes. -/
def Adds (read : List Node → Parsed FieldList) (field : Field) (nodes : List Node) : Prop :=
  ∀ more fields, read more = .ok fields →
    read (nodes ++ more) = .ok (.cons field.names field.type field.tag fields)

theorem read_of_each {read : List Node → Parsed FieldList} {fields : List Field}
    {nodes : List Node} (hnil : read [] = .ok .nil)
    (h : Each (fun field : Field => Adds read field.reread) fields nodes) :
    read nodes = .ok (.ofList (fields.map Field.reread)) := by
  induction fields generalizing nodes with
  | nil =>
    cases h
    exact hnil
  | cons field fields ih =>
    obtain ⟨left, right, rfl, hleft, hright⟩ := h
    exact hleft right _ (ih hright)

/-- Whether a text is read as the type of a parameter. -/
abbrev TakesParam (cs : List Char) (type : TypeExpr) : Prop :=
  TakesBefore Follows (.call .paramType) cs (Makes .paramType (Writes type))

theorem refuses_variadicType (h : ∀ after, input ≠ '.' :: '.' :: '.' :: after) :
    Refuses .spaced (.call .variadicType) input :=
  Refuses.call (Refuses.seq (refuses_text h))

theorem TakesBefore.param {cs : List Char} {type : TypeExpr} (h : TakesType cs type)
    (hdot : ∀ tail after, cs ++ tail ≠ '.' :: after) : TakesParam cs type := by
  refine ⟨h.opens, fun {tail rest} hfollows => ?_⟩
  obtain ⟨stop, hskips, htakes⟩ := h.takes hfollows
  have hnone : Refuses .spaced (.call .variadicType) (cs ++ tail) :=
    refuses_variadicType fun after => hdot tail _
  exact ⟨stop, hskips, takes_phrase .paramType rfl
    (hnone.alt_takes (htakes.imp fun _ hnodes => hnodes.writes))⟩

theorem TakesBefore.variadic {cs : List Char} {type : TypeExpr} (h : TakesType cs type) :
    TakesParam ("...".toList ++ cs) (.variadic type) := by
  refine ⟨rfl, fun {tail rest} hfollows => ?_⟩
  obtain ⟨stop, hskips, htakes⟩ := h.takes hfollows
  have hbody : Takes .spaced (ruleBody .variadicType) ("...".toList ++ (cs ++ tail)) stop _ :=
    Takes.seq (takes_text .spaced "..." _) (skips_append h.opens) htakes
  have hwrites : Takes .spaced (.call .variadicType) ("...".toList ++ (cs ++ tail)) stop
      (Writes (.variadic type)) := by
    refine (takes_phrase .variadicType rfl hbody).imp ?_
    rintro _ ⟨_, _, children, rfl, hchildren⟩
    obtain ⟨node, rfl, hnode⟩ := hchildren.nil_left.writes
    exact ⟨_, rfl, by rw [TypeExpr.ofNode, hnode]; rfl⟩
  exact ⟨stop, hskips, takes_phrase .paramType rfl hwrites.alt⟩

/-- Names before a type are read up to it. -/
theorem takes_names_before {first : String} {names : List String} {cs : List Char}
    (hopens : isOpening cs = true) (hfirst : isName first = true)
    (hnames : ∀ name ∈ names, isName name = true) :
    ∃ stop, Skips stop (cs ++ tail) ∧ Takes .spaced (.call .identifierList)
      (first.toList ++ (trailing [',', ' '] String.toList names ++ ' ' :: (cs ++ tail))) stop
      (Lists (first :: names)) := by
  have hgap : noGap (cs ++ tail) = true := noGap_of_isInked (isInked_append hopens)
  have hcomma : ∀ after, cs ++ tail ≠ ',' :: after := head_ne_append hopens (.inl rfl)
  exact takes_identifierList hfirst hnames
    ⟨(rfl : continues (' ' :: (cs ++ tail)) = false), skips_blank hgap⟩ (skips_of_noGap hgap) hcomma

/-- An entry with names is read with its names and its type. -/
theorem takesBefore_namedParameter {first : String} {names : List String} {cs : List Char}
    {type : TypeExpr} (hfirst : isName first = true)
    (hnames : ∀ name ∈ names, isName name = true) (htype : TakesParam cs type) :
    TakesBefore Follows (.call .parameterDecl)
      (first.toList ++ (trailing [',', ' '] String.toList names ++ ' ' :: cs))
      (Adds FieldList.ofParameters ⟨first :: names, type, none⟩) := by
  refine ⟨isOpening_append (isOpening_of_isName hfirst), fun {tail rest} hfollows => ?_⟩
  obtain ⟨stop, hskips, htakes⟩ := htype.takes hfollows
  obtain ⟨mid, hmid, hlist⟩ := takes_names_before htype.opens hfirst hnames
  have hbody : Takes .spaced (ruleBody .namedParameter)
      (first.toList ++ (trailing [',', ' '] String.toList names ++ ' ' :: (cs ++ tail))) stop _ :=
    Takes.seq hlist hmid htakes
  have htext : first.toList ++ (trailing [',', ' '] String.toList names ++ ' ' :: cs) ++ tail =
      first.toList ++ (trailing [',', ' '] String.toList names ++ ' ' :: (cs ++ tail)) := by
    simp only [List.append_assoc, List.cons_append]
  rw [htext]
  refine ⟨stop, hskips, (takes_phrase .parameterDecl rfl
    (Takes.alt (takes_phrase .namedParameter rfl hbody))).imp ?_⟩
  rintro _ ⟨_, _, _, rfl, _, _, _, rfl, _, _, rfl, ⟨list, rfl, hlist⟩,
    ⟨_, _, _, rfl, node, rfl, hnode⟩⟩ more fields hmore
  simp only [List.cons_append, List.nil_append, FieldList.ofParameters, hnode, hmore, hlist]
  rfl

/-! ### Entries without names -/

/-- How the text of an unnamed entry begins: it is a name, and nothing else if it stands alone, or
    has no name at its start. -/
inductive IsBare : Bool → List Char → Prop where
  | name {ident : String} (hident : isName ident = true) : IsBare true ident.toList
  | qualified {package ident : String} (hpackage : isName package = true)
      (hident : isName ident = true) : IsBare false (package.toList ++ '.' :: ident.toList)
  | other {cs : List Char} (h : ∀ tail, Refuses .spaced (.call .identifier) (cs ++ tail)) :
      IsBare false cs

/-- The names that follow one in a list. -/
def nameRound : Pattern :=
  commaRound (.call .identifier)

/-- Whether the names that go on a list at a text are followed by no type. -/
def EndsNames (input : List Char) : Prop :=
  ∃ stop next, Takes .spaced (.many nameRound) input stop (fun _ => True) ∧ Skips stop next ∧
    Refuses .spaced (.call .paramType) next ∧
    (stop = input ∧ next = input ∧ Refuses .spaced nameRound input ∨
      ∃ mid P, Takes .spaced nameRound input mid P)

theorem endsNames_of_refuses (hgap : Skips input input) (hround : Refuses .spaced nameRound input)
    (htype : Refuses .spaced (.call .paramType) input) : EndsNames input :=
  ⟨input, input, hround.many.imp fun _ _ => trivial, hgap, htype, .inl ⟨rfl, rfl, hround⟩⟩

theorem refuses_paramType (hdots : ∀ after, input ≠ '.' :: '.' :: '.' :: after)
    (htype : Refuses .spaced (.call .typeExpr) input) :
    Refuses .spaced (.call .paramType) input :=
  Refuses.call (Refuses.alt (refuses_variadicType hdots) htype)

theorem refuses_paramType_of_isStop (h : isStop input = true) :
    Refuses .spaced (.call .paramType) input := by
  refine refuses_paramType ?_ (refuses_typeExpr_of_isStop h)
  rintro after rfl
  cases h

/-- After a name of another package comes its selector, which is neither a name nor a type. -/
theorem endsNames_dot {ident : String} (hident : isName ident = true) (tail : List Char) :
    EndsNames ('.' :: (ident.toList ++ tail)) := by
  obtain ⟨c, cs, hchars, hstart, -, -⟩ := isName_iff.mp hident
  refine endsNames_of_refuses (skips_of_noGap rfl) (refuses_commaRound nofun)
    (refuses_paramType ?_ (refuses_typeExpr rfl))
  intro after hafter
  rw [hchars] at hafter
  injection hafter with _ hselector
  injection hselector with hc
  rw [hc] at hstart
  exact absurd hstart (by decide)

/-- Where an unnamed entry stands, a list of names takes its name at most, and no type follows if
    none follows an entry that is a name alone. -/
theorem IsBare.identifier {alone : Bool} {cs : List Char} (h : IsBare alone cs)
    (hfollows : Follows tail rest) (hends : alone = true → EndsNames rest) :
    Refuses .spaced (.call .identifier) (cs ++ tail) ∨ ∃ mid next P, Skips mid next ∧
      EndsNames next ∧ Takes .spaced (.call .identifier) (cs ++ tail) mid P := by
  cases h with
  | name hident =>
    exact .inr ⟨tail, rest, _, hfollows.skips, hends rfl,
      takes_identifier nofun hident hfollows.word⟩
  | @qualified package ident hpackage hident =>
    have htext : package.toList ++ '.' :: ident.toList ++ tail =
        package.toList ++ '.' :: (ident.toList ++ tail) := by
      simp only [List.append_assoc, List.cons_append]
    rw [htext]
    exact .inr ⟨_, _, _, skips_of_noGap rfl, endsNames_dot hident tail,
      takes_identifier nofun hpackage rfl⟩
  | other h => exact .inl (h tail)

theorem IsBare.endsNames {alone : Bool} {cs : List Char} (h : IsBare alone cs)
    (hopens : isOpening cs = true) (hfollows : Follows tail rest)
    (hends : alone = true → EndsNames rest) : EndsNames (',' :: ' ' :: (cs ++ tail)) := by
  rcases h.identifier hfollows hends with hrefuses | ⟨mid, next, P, hmid, hnext, htakes⟩
  · have hinked : isInked (cs ++ tail) = true := isInked_append hopens
    have hround : Refuses .spaced nameRound (',' :: ' ' :: (cs ++ tail)) :=
      Takes.seq_refuses (takes_text .spaced "," _) (skips_blank (noGap_of_isInked hinked))
        (Takes.seq_refuses (takes_newlines hinked) (skips_append hopens) hrefuses)
    exact endsNames_of_refuses (skips_of_noGap rfl) hround (refuses_paramType_of_isStop rfl)
  · have hround := takes_commaRound hopens htakes
    obtain ⟨stop, after, hmany, hskips, htype, hmore⟩ := hnext
    rcases hmore with ⟨rfl, rfl, hnone⟩ | ⟨again, Q, hagain⟩
    · exact ⟨mid, _, (hround.many_last hmid hnone).imp fun _ _ => trivial, hmid, htype,
        .inr ⟨mid, P, hround⟩⟩
    · exact ⟨stop, after, (hround.many_more hmid hagain hmany).imp fun _ _ => trivial, hskips,
        htype, .inr ⟨mid, P, hround⟩⟩

/-- An unnamed entry is not taken for names and a type. -/
theorem IsBare.refuses_namedParameter {alone : Bool} {cs : List Char} (h : IsBare alone cs)
    (hfollows : Follows tail rest) (hends : alone = true → EndsNames rest) :
    Refuses .spaced (.call .namedParameter) (cs ++ tail) := by
  refine Refuses.call ?_
  rcases h.identifier hfollows hends with hrefuses | ⟨mid, next, P, hmid, hnext, htakes⟩
  · exact Refuses.seq (Refuses.call (Refuses.seq hrefuses))
  · obtain ⟨stop, after, hmany, hskips, htype, -⟩ := hnext
    have hlist := takes_phrase .identifierList rfl (Takes.seq htakes hmid hmany)
    exact Takes.seq_refuses hlist hskips htype

theorem takesBefore_unnamedParameter {fits : List Char → List Char → Prop} {alone : Bool}
    {cs : List Char} {type : TypeExpr} (htype : TakesParam cs type) (hbare : IsBare alone cs)
    (hfits : ∀ {tail rest}, fits tail rest →
      Follows tail rest ∧ (alone = true → EndsNames rest)) :
    TakesBefore fits (.call .parameterDecl) cs
      (Adds FieldList.ofParameters ⟨[], type, none⟩) := by
  refine ⟨htype.opens, fun {tail rest} hfollows => ?_⟩
  obtain ⟨hfollows, hends⟩ := hfits hfollows
  obtain ⟨stop, hskips, htakes⟩ := htype.takes hfollows
  have hnone := hbare.refuses_namedParameter hfollows hends
  refine ⟨stop, hskips, (takes_phrase .parameterDecl rfl (hnone.alt_takes htakes)).imp ?_⟩
  rintro _ ⟨_, _, _, rfl, _, _, _, rfl, node, rfl, hnode⟩ more fields hmore
  simp only [List.cons_append, List.nil_append, FieldList.ofParameters, hnode, hmore]
  rfl

/-! ### Lists in parentheses -/

/-- Whether a text is read as a list of parameters, whatever follows it. -/
abbrev TakesParameters (cs : List Char) (fields : FieldList) : Prop :=
  TakesBefore Skips (.call .parameters) cs
    (Makes .parameters fun nodes => FieldList.ofParameters nodes = .ok fields)

theorem takesParameters_nil : TakesParameters ['(', ')'] .nil := by
  refine ⟨rfl, fun {tail rest} hskips => ⟨tail, hskips, ?_⟩⟩
  have hident : Refuses .spaced (.call .identifier) (')' :: tail) :=
    refuses_identifier_of_start fun _ _ h => by cases h; rfl
  have hnamed : Refuses .spaced (.call .namedParameter) (')' :: tail) :=
    Refuses.call (Refuses.seq (Refuses.call (Refuses.seq hident)))
  have hnone : Refuses .spaced (.call .parameterDecl) (')' :: tail) :=
    Refuses.call (hnamed.alt (refuses_paramType_of_isStop rfl))
  have hbody : Takes .spaced (ruleBody .parameters) ('(' :: ')' :: tail) tail _ :=
    Takes.seq (takes_text .spaced "(" _) (skips_of_noGap rfl)
      (Takes.seq (takes_newlines rfl) (skips_of_noGap rfl)
        (Takes.seq (Refuses.opt (Refuses.seq hnone)) (skips_of_noGap rfl)
          (Takes.seq (takes_newlines rfl) (skips_of_noGap rfl) (takes_text .spaced ")" tail))))
  refine (takes_phrase .parameters rfl hbody).imp ?_
  rintro _ ⟨_, _, children, rfl, hchildren⟩
  cases hchildren.nil_left.nil_left.nil_left.nil_left
  exact ⟨_, _, _, rfl, rfl⟩

/-- The text of an entry. -/
def entryText (field : Field) : List Char :=
  field.render.toList

theorem FieldList.renderEntries_eq (fields : FieldList) :
    fields.renderEntries = fields.toList.map Field.render := by
  fun_induction FieldList.toList fields with
  | case1 => rfl
  | case2 names type tag rest ih =>
    rw [FieldList.renderEntries, ih]
    rfl

theorem toList_intercalate_entries {s : String} {separator : List Char}
    (hs : s.toList = separator) (first : Field) (fields : List Field) :
    (s.intercalate ((first :: fields).map Field.render)).toList =
      entryText first ++ trailing separator entryText fields := by
  rw [List.map_cons, toList_intercalate_cons, List.flatMap_map, hs]
  rfl

/-- What may come after an entry that has the given entries after it. -/
def FollowsEntry (more : List Field) (tail rest : List Char) : Prop :=
  Follows tail rest ∧ (beginsWithoutType more = true → EndsNames rest)

theorem takesParameters_cons {first : Field} {fields : List Field}
    (hitems : ∀ field more, field :: more <:+ first :: fields →
      TakesBefore (FollowsEntry more) (.call .parameterDecl) (entryText field)
        (Adds FieldList.ofParameters field.reread))
    (hfits : ∀ field more, field :: more <:+ first :: fields → ∀ {tail rest : List Char},
      FollowsEntry more tail rest → FollowsEntry (field :: more)
        (',' :: ' ' :: (entryText field ++ tail)) (',' :: ' ' :: (entryText field ++ tail))) :
    TakesParameters ('(' :: (entryText first ++ (trailing [',', ' '] entryText fields ++ [')'])))
      (.ofList ((first :: fields).map Field.reread)) := by
  refine ⟨rfl, fun {tail rest} hskips => ⟨tail, hskips, ?_⟩⟩
  have hlast : FollowsEntry [] (')' :: tail) (')' :: tail) :=
    ⟨follows_of_isStop rfl, fun _ => endsNames_of_refuses (skips_of_noGap rfl)
      (refuses_commaRound nofun) (refuses_paramType_of_isStop rfl)⟩
  obtain ⟨next, stop, hnext, hstop, hmany, -⟩ := takes_many_each [',', ' '] entryText
    (fun hitem hfits => by
      obtain ⟨stop, hstop, htakes⟩ := hitem.takes hfits
      exact ⟨stop, hstop, takes_commaRound hitem.opens htakes⟩)
    (fun field more hsuffix => hitems field more (hsuffix.trans (List.suffix_cons _ _)))
    (fun field more hsuffix => hfits field more (hsuffix.trans (List.suffix_cons _ _))) hlast
    (skips_of_noGap rfl) (refuses_commaRound nofun)
  have hopens := (hitems first fields List.suffix_rfl).opens
  obtain ⟨mid, hmid, hfirst⟩ := (hitems first fields List.suffix_rfl).takes hnext
  have hcomma : Refuses .spaced (text ",") (')' :: tail) := refuses_text_of_head rfl nofun
  have hbody : Takes .spaced (ruleBody .parameters)
      ('(' :: (entryText first ++ (trailing [',', ' '] entryText fields ++ ')' :: tail))) tail _ :=
    Takes.seq (takes_text .spaced "(" _) (skips_append hopens)
      (Takes.seq (takes_newlines (isInked_append hopens)) (skips_append hopens)
        (Takes.seq (Takes.opt (Takes.seq hfirst hmid (Takes.seq hmany hstop hcomma.opt)))
          (skips_of_noGap rfl) (Takes.seq (takes_newlines rfl) (skips_of_noGap rfl)
            (takes_text .spaced ")" tail))))
  have htext : '(' :: (entryText first ++ (trailing [',', ' '] entryText fields ++ [')'])) ++ tail =
      '(' :: (entryText first ++ (trailing [',', ' '] entryText fields ++ ')' :: tail)) := by
    simp only [List.cons_append, List.append_assoc, List.nil_append]
  rw [htext]
  refine (takes_phrase .parameters rfl hbody).imp ?_
  rintro _ ⟨start, stop, children, rfl, hchildren⟩
  refine ⟨start, stop, children, rfl, read_of_each rfl ?_⟩
  obtain ⟨_, _, rfl, hall, hend⟩ := hchildren.nil_left.nil_left
  cases hend.nil_left
  obtain ⟨left, right, rfl, hleft, hright⟩ := hall
  refine ⟨left, right, List.append_nil _, hleft, hright.nil_right⟩

theorem render_unnamed {field : Field} (hnames : field.names = []) (htag : field.tag = none) :
    field.render = field.type.render := by
  rw [Field.render, hnames, htag]
  rfl

theorem entryText_named {field : Field} {first : String} {names : List String}
    (hnames : field.names = first :: names) (htag : field.tag = none) :
    entryText field = first.toList ++
      (trailing [',', ' '] String.toList names ++ ' ' :: field.type.render.toList) := by
  have hrender : field.render =
      ", ".intercalate (first :: names) ++ " " ++ field.type.render := by
    rw [Field.render, hnames, htag]
    rfl
  rw [entryText, hrender, String.toList_append, String.toList_append, toList_intercalate_cons,
    List.append_assoc, List.append_assoc]
  rfl

theorem keepsNames_of_suffix {fields : List Field} (h : keepsNames fields = true) {field : Field}
    {more : List Field} (hsuffix : field :: more <:+ fields) :
    field.isLoneName = true → beginsWithoutType more = true := by
  induction fields with
  | nil => cases List.suffix_nil.mp hsuffix
  | cons first rest ih =>
    obtain ⟨hfirst, hrest⟩ := Bool.and_eq_true_iff.mp h
    rcases List.suffix_cons_iff.mp hsuffix with heq | hsuffix
    · cases heq
      intro hlone
      rwa [hlone] at hfirst
    · exact ih hrest hsuffix

/-- **Entries in parentheses are read as parameters**, with names or without. -/
theorem takesParameters {fields : FieldList} (h : fields.AreEntries)
    (htypes : ∀ field ∈ fields.toList, TakesParam field.type.render.toList field.type.reread ∧
      IsBare field.type.isOwnName field.type.render.toList) :
    TakesParameters fields.render.toList fields.reread := by
  have hrender : fields.render.toList =
      '(' :: ((", ".intercalate (fields.toList.map Field.render)).toList ++ [')']) := by
    rw [FieldList.render, FieldList.renderEntries_eq, String.toList_append, String.toList_append]
    rfl
  rw [hrender, FieldList.reread_eq]
  obtain ⟨hnames, htags, hkeeps⟩ := h
  cases hfields : fields.toList with
  | nil => exact takesParameters_nil
  | cons first rest =>
    rw [hfields] at htypes hnames htags hkeeps
    rw [toList_intercalate_entries rfl, List.append_assoc]
    refine takesParameters_cons (fun field more hsuffix => ?_) fun field more hsuffix _ _
      hfollows => ⟨follows_of_isStop rfl, fun hbegins => ?_⟩
    · have hmem : field ∈ first :: rest := hsuffix.subset List.mem_cons_self
      obtain ⟨htype, hbare⟩ := htypes field hmem
      have hlone := keepsNames_of_suffix hkeeps hsuffix
      cases hentry : field.names with
      | nil =>
        have htext : entryText field = field.type.render.toList := by
          rw [entryText, render_unnamed hentry (htags field hmem)]
        have hsame : field.reread = ⟨[], field.type.reread, none⟩ := by
          rw [Field.reread, hentry, htags field hmem]
        rw [htext, hsame]
        refine takesBefore_unnamedParameter htype hbare fun hfollows =>
          ⟨hfollows.1, fun hown => hfollows.2 (hlone ?_)⟩
        rw [Field.isLoneName, hentry, hown]
        rfl
      | cons name names =>
        have hall := hnames field hmem
        rw [hentry, List.all_eq_true] at hall
        have hsame : field.reread = ⟨name :: names, field.type.reread, none⟩ := by
          rw [Field.reread, hentry, htags field hmem]
        rw [entryText_named hentry (htags field hmem), hsame]
        exact (takesBefore_namedParameter (hall name List.mem_cons_self)
          (fun name hname => hall name (List.mem_cons_of_mem _ hname)) htype).mono And.left
    · have hmem : field ∈ first :: rest := hsuffix.subset List.mem_cons_self
      obtain ⟨htype, hbare⟩ := htypes field hmem
      rw [beginsWithoutType, Bool.and_eq_true_iff, List.isEmpty_iff] at hbegins
      have htext : entryText field = field.type.render.toList := by
        rw [entryText, render_unnamed hbegins.1 (htags field hmem)]
      rw [htext]
      refine hbare.endsNames htype.opens hfollows.1 fun hown => hfollows.2 ?_
      have hmore := hbegins.2
      rwa [hown] at hmore

/-! ## 4. Signatures -/

/-- Whether a text is what follows the parameters of a signature with the given results. -/
def TakesResults (cs : List Char) (results : FieldList) : Prop :=
  ∀ tail rest : List Char, Follows tail rest → ∃ next stop, Skips (cs ++ tail) next ∧
    Skips stop rest ∧ Takes .spaced (.opt (.call .result)) next stop fun nodes =>
      FieldList.ofResults nodes = .ok results

theorem refuses_parameters (h : ∀ after, input ≠ '(' :: after) :
    Refuses .spaced (.call .parameters) input :=
  Refuses.call (Refuses.seq (refuses_text_of_head rfl h))

theorem takesResults_nil : TakesResults [] .nil := by
  intro tail rest hfollows
  have hhead : ∀ after, rest ≠ '(' :: after := by
    rintro after rfl
    cases hfollows.stop
  have hnone : Refuses .spaced (.call .result) rest :=
    Refuses.call ((refuses_parameters hhead).alt (refuses_typeExpr_of_isStop hfollows.stop))
  refine ⟨rest, rest, hfollows.skips, hfollows.skips_rest, hnone.opt.imp ?_⟩
  rintro _ rfl
  rfl

theorem takesResults_type {cs : List Char} {type : TypeExpr} (h : TakesType cs type)
    (hhead : ∀ tail after, cs ++ tail ≠ '(' :: after) :
    TakesResults (' ' :: cs) (.cons [] type none .nil) := by
  intro tail rest hfollows
  obtain ⟨stop, hskips, htakes⟩ := h.takes hfollows
  have hresult := takes_phrase .result rfl
    ((refuses_parameters fun after => hhead tail after).alt_takes htakes)
  refine ⟨cs ++ tail, stop, skips_blank (noGap_of_isInked (isInked_append h.opens)), hskips,
    hresult.opt.imp ?_⟩
  rintro _ ⟨_, _, children, rfl, hchildren⟩
  obtain ⟨_, _, form, rfl, hnode⟩ := hchildren.exists_node
  simp only [FieldList.ofResults, hnode]
  rfl

theorem takesResults_parameters {cs : List Char} {results : FieldList}
    (h : TakesParameters cs results) : TakesResults (' ' :: cs) results := by
  intro tail rest hfollows
  obtain ⟨stop, hskips, htakes⟩ := h.takes hfollows.skips
  have hresult := takes_phrase .result rfl
    (Takes.alt htakes : Takes .spaced (ruleBody .result) (cs ++ tail) stop _)
  refine ⟨cs ++ tail, stop, skips_blank (noGap_of_isInked (isInked_append h.opens)), hskips,
    hresult.opt.imp ?_⟩
  rintro _ ⟨_, _, _, rfl, _, _, children, rfl, hchildren⟩
  exact hchildren

/-- Whether there is one node, which stands for parameters and results. -/
def Signs (params results : FieldList) (nodes : List Node) : Prop :=
  ∃ rule start stop rule' start' stop' children more,
    nodes = [⟨rule, start, stop, ⟨rule', start', stop', children⟩ :: more⟩] ∧
      FieldList.ofParameters children = .ok params ∧ FieldList.ofResults more = .ok results

/-- **Parameters and results are read as a signature.** -/
theorem takesBefore_signature {cs ds : List Char} {params results : FieldList}
    (hparams : TakesParameters cs params) (hresults : TakesResults ds results) :
    TakesBefore Follows (.call .signature) (cs ++ ds) (Signs params results) := by
  refine ⟨isOpening_append hparams.opens, fun {tail rest} hfollows => ?_⟩
  obtain ⟨next, stop, hnext, hstop, hresult⟩ := hresults tail rest hfollows
  obtain ⟨mid, hmid, hlist⟩ := hparams.takes hnext
  rw [List.append_assoc]
  refine ⟨stop, hstop, (takes_phrase .signature rfl (Takes.seq hlist hmid hresult)).imp ?_⟩
  rintro _ ⟨start, stop, _, rfl, _, more, rfl, ⟨start', stop', children, rfl, hchildren⟩, hmore⟩
  exact ⟨_, _, _, _, _, _, children, more, rfl, hchildren, hmore⟩

theorem TakesBefore.function {cs : List Char} {params results : FieldList}
    (h : TakesBefore Follows (.call .signature) cs (Signs params results))
    (hparen : ∃ ds, cs = '(' :: ds) :
    TakesType ("func".toList ++ cs) (.function params results) := by
  refine ⟨rfl, fun {tail rest} hfollows => ?_⟩
  obtain ⟨stop, hskips, htakes⟩ := h.takes hfollows
  obtain ⟨ds, rfl⟩ := hparen
  have hbody : Takes .spaced (ruleBody .funcType)
      ('f' :: 'u' :: 'n' :: 'c' :: '(' :: (ds ++ tail)) stop _ :=
    Takes.seq (takes_keyword rfl rfl rfl rfl) (skips_of_noGap rfl) htakes
  refine ⟨stop, hskips, takes_typeExpr [.pointerType, .sliceType, .arrayType, .mapType,
    .recvChanType, .chanType] .funcType rfl rfl ?_⟩
  refine (takes_phrase .funcType rfl hbody).imp ?_
  rintro _ ⟨_, _, children, rfl, hchildren⟩
  obtain ⟨_, _, _, _, _, _, _, _, rfl, hparams, hresults⟩ := hchildren.nil_left
  refine ⟨_, rfl, ?_⟩
  simp only [TypeExpr.ofNode, hparams, hresults]
  rfl

end GoStencil.Grammar
