import GoStencil.Proofs.TypeExpr.Lists

/-!
# How structs and interfaces are read

Fields and members stand between braces, with semicolons between them. A field can have a tag,
which is a string literal.

* `takes_fieldTag`: a tag is read as it is written.
* `takes_block`: items between braces are read.
* `takesType_struct`, `takesType_interface`: so are the types made of them.
-/

namespace GoStencil.Grammar

open Pattern

variable {input tail rest : List Char}

/-! ## 1. Tags -/

/-- What is between the quotes of a string literal, one escape or one character at a time. -/
def stringPiece : Pattern :=
  oneOf [.seq (text "\\") anyChar, anyCharBut (oneOf [text "\"", newline])]

theorem takes_escaped (c : Char) (rest : List Char) :
    Takes .token stringPiece ('\\' :: c :: rest) rest fun _ => True := by
  refine Takes.alt ?_
  exact (Takes.seq (takes_text .token "\\" (c :: rest)) (skipsIn_token _)
    (takes_satisfy rfl)).imp fun _ _ => trivial

theorem takes_unescaped {c : Char} (hquote : c ≠ '"') (hescape : c ≠ '\\') (hfeed : c ≠ '\n')
    (hreturn : c ≠ '\r') (rest : List Char) :
    Takes .token stringPiece (c :: rest) rest fun _ => True := by
  have hstop : Refuses .token (oneOf [text "\"", newline]) (c :: rest) := by
    refine (refuses_oneChar rfl hquote).alt ((refuses_oneChar rfl hfeed).alt (Refuses.alt ?_ ?_))
    · exact refuses_text_of_head rfl fun _ h => by cases h; exact hreturn rfl
    · exact refuses_oneChar rfl hreturn
  exact Refuses.alt_takes (Refuses.seq (refuses_oneChar rfl hescape))
    (takes_anyCharBut skipsIn_token hstop)

/-- The inside of a string literal is made of escaped characters and plain ones. -/
theorem exists_pieces_of_closesString {inner : List Char} (h : closesString inner = true) :
    ∃ pieces : List (List Char), inner = pieces.flatten ++ ['"'] ∧
      ∀ piece ∈ pieces, ∀ rest, Takes .token stringPiece (piece ++ rest) rest fun _ => True := by
  fun_induction closesString inner with
  | case1 => cases h
  | case2 => exact ⟨[], rfl, nofun⟩
  | case3 c inner ih =>
    obtain ⟨pieces, rfl, hpieces⟩ := ih h
    refine ⟨['\\', c] :: pieces, rfl, fun piece hpiece => ?_⟩
    rcases List.mem_cons.mp hpiece with rfl | hpiece
    · exact takes_escaped c
    · exact hpieces piece hpiece
  | case4 c inner _ _ ih =>
    simp only [Bool.and_eq_true, bne_iff_ne, ne_eq] at h
    obtain ⟨⟨⟨⟨hquote, hescape⟩, hfeed⟩, hreturn⟩, hinner⟩ := h
    obtain ⟨pieces, rfl, hpieces⟩ := ih hinner
    refine ⟨[c] :: pieces, rfl, fun piece hpiece => ?_⟩
    rcases List.mem_cons.mp hpiece with rfl | hpiece
    · exact takes_unescaped hquote hescape hfeed hreturn
    · exact hpieces piece hpiece

theorem takes_stringLit {inner : List Char} (h : closesString inner = true) :
    Takes .token (.call .stringLit) ('"' :: (inner ++ rest)) rest (· = []) := by
  obtain ⟨pieces, rfl, hpieces⟩ := exists_pieces_of_closesString h
  have hend : Refuses .token stringPiece ('"' :: rest) :=
    Refuses.alt (Refuses.seq (refuses_text_of_head rfl nofun))
      (refuses_anyCharBut (Takes.alt (takes_text .token "\"" rest)))
  rw [List.append_assoc]
  exact Takes.call_token (Takes.seq (takes_text .token "\"" _) (skipsIn_token _)
    (Takes.seq (takes_many_pieces hpieces hend) (skipsIn_token _) (takes_text .token "\"" rest)))

theorem exists_of_closesRawString {inner : List Char} (h : closesRawString inner = true) :
    ∃ body, inner = body ++ ['\x60'] ∧ ∀ c ∈ body, c ≠ '\x60' := by
  fun_induction closesRawString inner with
  | case1 => cases h
  | case2 => exact ⟨[], rfl, nofun⟩
  | case3 c inner _ ih =>
    obtain ⟨hquote, hinner⟩ := Bool.and_eq_true_iff.mp h
    obtain ⟨body, rfl, hbody⟩ := ih hinner
    refine ⟨c :: body, rfl, fun d hd => ?_⟩
    rcases List.mem_cons.mp hd with rfl | hd
    · exact bne_iff_ne.mp hquote
    · exact hbody d hd

theorem takes_rawStringLit {inner : List Char} (h : closesRawString inner = true) :
    Takes .token (.call .rawStringLit) ('\x60' :: (inner ++ rest)) rest (· = []) := by
  obtain ⟨body, rfl, hbody⟩ := exists_of_closesRawString h
  have hchars : ∀ c ∈ body, ∀ rest,
      Takes .token (anyCharBut (text "\x60")) (c :: rest) rest fun _ => True := fun c hc rest =>
    takes_anyCharBut skipsIn_token (refuses_oneChar rfl (hbody c hc))
  have hend : Refuses .token (anyCharBut (text "\x60")) ('\x60' :: rest) :=
    refuses_anyCharBut (takes_text .token "\x60" rest)
  rw [List.append_assoc]
  exact Takes.call_token (Takes.seq (takes_text .token "\x60" _) (skipsIn_token _)
    (Takes.seq (takes_many_chars hchars hend) (skipsIn_token _) (takes_text .token "\x60" rest)))

/-- The two kinds of tags. -/
theorem cases_of_isTag {tag : String} (h : isTag tag = true) :
    (∃ inner, tag.toList = '"' :: inner ∧ closesString inner = true) ∨
      ∃ inner, tag.toList = '\x60' :: inner ∧ closesRawString inner = true := by
  unfold isTag at h
  split at h
  · exact .inl ⟨_, ‹_›, h⟩
  · exact .inr ⟨_, ‹_›, h⟩
  · cases h

theorem isStop_of_isTag {tag : String} (h : isTag tag = true) :
    isStop (tag.toList ++ tail) = true := by
  rcases cases_of_isTag h with ⟨inner, hchars, -⟩ | ⟨inner, hchars, -⟩
  · rw [hchars]
    rfl
  · rw [hchars]
    rfl

/-- **A tag is read as it is written.** -/
theorem takes_fieldTag {tag : String} (h : isTag tag = true) (rest : List Char) :
    Takes .spaced (.call .fieldTag) (tag.toList ++ rest) rest
      (Spells .fieldTag tag.toList) := by
  have hbody : ∃ P, Takes .token (ruleBody .fieldTag) (tag.toList ++ rest) rest P := by
    rcases cases_of_isTag h with ⟨inner, hchars, hinner⟩ | ⟨inner, hchars, hinner⟩
    · rw [hchars]
      exact ⟨_, Takes.alt (takes_stringLit hinner)⟩
    · have hstring : Refuses .token (.call .stringLit) ('\x60' :: (inner ++ rest)) :=
        Refuses.call (Refuses.seq (refuses_text_of_head rfl nofun))
      rw [hchars]
      exact ⟨_, hstring.alt_takes (takes_rawStringLit hinner)⟩
  obtain ⟨P, hbody⟩ := hbody
  exact takes_tokenRule .fieldTag rfl hbody

/-! ## 2. Items between braces -/

theorem takes_separator {cs : List Char} (h : isOpening cs = true) :
    Takes .spaced separator (';' :: ' ' :: (cs ++ tail)) (cs ++ tail) (· = []) := by
  have hinked : isInked (cs ++ tail) = true := isInked_append h
  have hsemicolon : Refuses .spaced (text ";") (cs ++ tail) :=
    refuses_text_of_head rfl (head_ne_append h (.inr rfl))
  have hone : Takes .spaced (oneOf [newline, text ";"]) (';' :: ' ' :: (cs ++ tail))
      (' ' :: (cs ++ tail)) (· = []) :=
    (refuses_newline rfl).alt_takes (takes_text .spaced ";" _)
  refine (Takes.seq hone (skips_blank (noGap_of_isInked hinked))
    (Refuses.many ((refuses_newline hinked).alt hsemicolon))).imp ?_
  rintro _ ⟨_, _, rfl, rfl, rfl⟩
  rfl

theorem refuses_separator (rest : List Char) :
    Refuses .spaced separator ('\x7d' :: rest) :=
  Refuses.seq ((refuses_newline rfl).alt (refuses_text_of_head rfl nofun))

/-- Any number of items between braces. -/
def block (item : Pattern) : Pattern :=
  inOrder [text "\x7b", newlines, .opt (separated item), text "\x7d"]

theorem takes_block_nil {item : Pattern} (h : Refuses .spaced item ('\x7d' :: rest)) :
    Takes .spaced (block item) ('\x7b' :: '\x7d' :: rest) rest (· = []) := by
  have hbody : Takes .spaced (block item) ('\x7b' :: '\x7d' :: rest) rest _ :=
    Takes.seq (takes_text .spaced "\x7b" _) (skips_of_noGap rfl)
      (Takes.seq (takes_newlines rfl) (skips_of_noGap rfl)
        (Takes.seq (Refuses.opt (Refuses.seq h)) (skips_of_noGap rfl)
          (takes_text .spaced "\x7d" rest)))
  exact hbody.imp fun _ hnodes => hnodes.nil_left.nil_left.nil_left

/-- **Items between braces are read.** -/
theorem takes_block {α : Type} {fits : List Char → List Char → Prop} {item : Pattern}
    {write : α → List Char} {P : α → List Node → Prop} {first : α} {items : List α}
    (hitems : ∀ one ∈ first :: items, TakesBefore fits item (write one) (P one))
    (hfits : ∀ one ∈ first :: items, ∀ {tail rest : List Char}, fits tail rest →
      fits (';' :: ' ' :: (write one ++ tail)) (';' :: ' ' :: (write one ++ tail)))
    (hlast : fits (' ' :: '\x7d' :: rest) ('\x7d' :: rest)) :
    Takes .spaced (block item)
      ('\x7b' :: ' ' :: (write first ++ (trailing [';', ' '] write items ++ ' ' :: '\x7d' :: rest)))
      rest (Each P (first :: items)) := by
  obtain ⟨next, stop, hnext, hstop, hmany⟩ := takes_many_items [';', ' '] write
    (fun hitem hfits => by
      obtain ⟨stop, hstop, htakes⟩ := hitem.takes hfits
      have hround : Takes .spaced (.seq separator item) _ stop _ :=
        Takes.seq (takes_separator hitem.opens) (skips_append hitem.opens) htakes
      exact ⟨stop, hstop, hround.imp fun _ hnodes => hnodes.nil_left⟩)
    (fun one hone => hitems one (List.mem_cons_of_mem _ hone))
    (fun one hone => hfits one (List.mem_cons_of_mem _ hone)) hlast (skips_of_noGap rfl)
    (Refuses.seq (refuses_separator rest))
  have hopens := (hitems first List.mem_cons_self).opens
  obtain ⟨mid, hmid, hfirst⟩ := (hitems first List.mem_cons_self).takes hnext
  have hinked : isInked
      (write first ++ (trailing [';', ' '] write items ++ ' ' :: '\x7d' :: rest)) = true :=
    isInked_append hopens
  have hbody : Takes .spaced (block item)
      ('\x7b' :: ' ' :: (write first ++ (trailing [';', ' '] write items ++ ' ' :: '\x7d' :: rest)))
      rest _ :=
    Takes.seq (takes_text .spaced "\x7b" _) (skips_blank (noGap_of_isInked hinked))
      (Takes.seq (takes_newlines hinked) (skips_append hopens)
        (Takes.seq (Takes.opt (Takes.seq hfirst hmid
            (Takes.seq hmany hstop (refuses_separator rest).opt)))
          (skips_of_noGap rfl) (takes_text .spaced "\x7d" rest)))
  refine hbody.imp fun nodes hnodes => ?_
  obtain ⟨left, right, rfl, hleft, hright⟩ := hnodes.nil_left.nil_left.nil_right
  exact ⟨left, right, rfl, hleft, hright.nil_right⟩

/-! ## 3. Names that stand for themselves -/

theorem refuses_signature (h : ∀ after, input ≠ '(' :: after) :
    Refuses .spaced (.call .signature) input :=
  Refuses.call (Refuses.seq (refuses_parameters h))

/-- The names that a struct or an interface can embed. -/
def embeddedNames : Pattern :=
  oneOf [.call .qualifiedIdent, .call .typeName]

theorem toList_render_qualified (package ident : String) :
    (TypeExpr.qualified package ident).render.toList =
      package.toList ++ '.' :: ident.toList := by
  rw [TypeExpr.render, String.toList_append, String.toList_append, List.append_assoc]
  rfl

theorem takesBefore_embeddedNames {type : TypeExpr} (htype : type.isTypeName = true)
    (h : type.IsReadable) :
    TakesBefore Follows embeddedNames type.render.toList (Writes type) := by
  cases h with
  | name hident =>
    exact ⟨isOpening_of_isName hident, fun {tail _} hfollows => ⟨tail, hfollows.skips,
      (refuses_qualifiedIdent hident hfollows.word hfollows.dot).alt_takes
        (takes_typeName hident hfollows.word)⟩⟩
  | @qualified package ident hpackage hident =>
    rw [toList_render_qualified]
    refine ⟨isOpening_append (isOpening_of_isName hpackage), fun {tail _} hfollows =>
      ⟨tail, hfollows.skips, ?_⟩⟩
    rw [List.append_assoc, List.cons_append]
    exact Takes.alt (takes_qualifiedIdent hpackage hident hfollows.word)
  | _ => cases htype

/-- Where a name is embedded, an identifier is read, and what follows goes on neither a list of
    names nor with a type or a signature. -/
theorem takes_identifier_of_isTypeName {type : TypeExpr} (htype : type.isTypeName = true)
    (h : type.IsReadable) (hfollows : Follows tail rest) :
    ∃ mid next P, Skips mid next ∧ (next = rest ∨ ∃ after, next = '.' :: after) ∧
      Takes .spaced (.call .identifier) (type.render.toList ++ tail) mid P := by
  cases h with
  | name hident =>
    exact ⟨tail, rest, _, hfollows.skips, .inl rfl, takes_identifier nofun hident hfollows.word⟩
  | @qualified package ident hpackage hident =>
    rw [toList_render_qualified, List.append_assoc, List.cons_append]
    exact ⟨_, _, _, skips_of_noGap rfl, .inr ⟨_, rfl⟩, takes_identifier nofun hpackage rfl⟩
  | _ => cases htype

/-! ## 4. Fields of structs -/

/-- What may come after the type of a field. -/
def FollowsField (tail rest : List Char) : Prop :=
  Follows tail rest ∧ ∀ after, rest ≠ ',' :: after

/-- Whether the first node of a field stands for names and a type. -/
def Declares (names : List String) (type : TypeExpr) (nodes : List Node) : Prop :=
  ∀ rule start stop tag more fields, FieldList.ofFields more = .ok fields →
    FieldList.ofFields (⟨rule, start, stop, nodes ++ tag⟩ :: more) =
      .ok (.cons names type (tag.head?.map Node.text) fields)

/-- The names and the type of a field, or an embedded type. -/
def fieldHead : Pattern :=
  oneOf [.call .namedField, .call .embeddedField]

theorem takesBefore_namedField {first : String} {names : List String} {cs : List Char}
    {type : TypeExpr} (hfirst : isName first = true)
    (hnames : ∀ name ∈ names, isName name = true) (htype : TakesType cs type) :
    TakesBefore FollowsField fieldHead
      (first.toList ++ (trailing [',', ' '] String.toList names ++ ' ' :: cs))
      (Declares (first :: names) type) := by
  refine ⟨isOpening_append (isOpening_of_isName hfirst), fun {tail rest} hfollows => ?_⟩
  obtain ⟨stop, hskips, htakes⟩ := htype.takes hfollows.1
  obtain ⟨mid, hmid, hlist⟩ := takes_names_before htype.opens hfirst hnames
  have hbody : Takes .spaced (ruleBody .namedField)
      (first.toList ++ (trailing [',', ' '] String.toList names ++ ' ' :: (cs ++ tail))) stop _ :=
    Takes.seq hlist hmid htakes
  have htext : first.toList ++ (trailing [',', ' '] String.toList names ++ ' ' :: cs) ++ tail =
      first.toList ++ (trailing [',', ' '] String.toList names ++ ' ' :: (cs ++ tail)) := by
    simp only [List.append_assoc, List.cons_append]
  rw [htext]
  refine ⟨stop, hskips, (Takes.alt (takes_phrase .namedField rfl hbody)).imp ?_⟩
  rintro _ ⟨_, _, _, rfl, _, _, rfl, ⟨list, rfl, hlist⟩, htypeNodes⟩ rule _ _ tag more fields hmore
  obtain ⟨_, _, form, rfl, hnode⟩ := htypeNodes.exists_node
  simp only [List.cons_append, List.nil_append, FieldList.ofFields, hnode, hmore, hlist]
  rfl

/-- An embedded type is not taken for names and a type. -/
theorem refuses_namedField {type : TypeExpr} (htype : type.isTypeName = true)
    (h : type.IsReadable) (hfollows : FollowsField tail rest) :
    Refuses .spaced (.call .namedField) (type.render.toList ++ tail) := by
  obtain ⟨mid, next, P, hskips, hnext, htakes⟩ :=
    takes_identifier_of_isTypeName htype h hfollows.1
  have hends : (∀ after, next ≠ ',' :: after) ∧ Skips next next ∧
      Refuses .spaced (.call .typeExpr) next := by
    rcases hnext with rfl | ⟨after, rfl⟩
    · exact ⟨hfollows.2, hfollows.1.skips_rest, refuses_typeExpr_of_isStop hfollows.1.stop⟩
    · exact ⟨nofun, skips_of_noGap rfl, refuses_typeExpr rfl⟩
  have hround : Refuses .spaced nameRound next := refuses_commaRound hends.1
  have hlist := takes_phrase .identifierList rfl (Takes.seq htakes hskips hround.many)
  exact Refuses.call (Takes.seq_refuses hlist hends.2.1 hends.2.2)

theorem declares_of_writes {type : TypeExpr} {nodes : List Node}
    (h : Makes .embeddedField (Writes type) nodes) : Declares [] type nodes := by
  obtain ⟨_, _, _, rfl, node, rfl, hnode⟩ := h
  intro rule start stop tag more fields hmore
  rw [List.cons_append, List.nil_append, FieldList.ofFields, hnode, hmore]
  · rfl
  · exact nofun

theorem takesBefore_embeddedName {type : TypeExpr} (htype : type.isTypeName = true)
    (h : type.IsReadable) :
    TakesBefore FollowsField fieldHead type.render.toList (Declares [] type) := by
  have hnames := takesBefore_embeddedNames htype h
  refine ⟨hnames.opens, fun {tail rest} hfollows => ?_⟩
  obtain ⟨stop, hskips, htakes⟩ := hnames.takes hfollows.1
  have hhead : ∀ after, type.render.toList ++ tail ≠ '*' :: after := by
    cases h with
    | name hident => exact head_ne_of_isName hident (by decide)
    | @qualified package ident hpackage _ =>
      rw [toList_render_qualified, List.append_assoc]
      exact head_ne_of_isName hpackage (by decide)
    | _ => cases htype
  have hpointer : Refuses .spaced (.call .embeddedPointer) (type.render.toList ++ tail) :=
    Refuses.call (refuses_text_of_head rfl hhead)
  have hbody : Takes .spaced (ruleBody .embeddedField) (type.render.toList ++ tail) stop _ :=
    Takes.seq hpointer.opt (skips_append hnames.opens) htakes
  refine ⟨stop, hskips, ((refuses_namedField htype h hfollows).alt_takes
    (takes_phrase .embeddedField rfl hbody)).imp ?_⟩
  rintro _ ⟨_, _, _, rfl, hchildren⟩
  exact declares_of_writes ⟨_, _, _, rfl, hchildren.nil_left⟩

theorem takesBefore_embeddedPointer {elem : TypeExpr} (helem : elem.isTypeName = true)
    (h : elem.IsReadable) :
    TakesBefore FollowsField fieldHead ('*' :: elem.render.toList)
      (Declares [] (.pointer elem)) := by
  have hnames := takesBefore_embeddedNames helem h
  refine ⟨rfl, fun {tail rest} hfollows => ?_⟩
  obtain ⟨stop, hskips, htakes⟩ := hnames.takes hfollows.1
  have hident : Refuses .spaced (.call .identifier) ('*' :: (elem.render.toList ++ tail)) :=
    refuses_identifier_of_start fun _ _ h => by cases h; rfl
  have hnamed : Refuses .spaced (.call .namedField) ('*' :: (elem.render.toList ++ tail)) :=
    Refuses.call (Refuses.seq (Refuses.call (Refuses.seq hident)))
  have hpointer := takes_phrase .embeddedPointer rfl
    (takes_text .spaced "*" (elem.render.toList ++ tail))
  have hbody : Takes .spaced (ruleBody .embeddedField) ('*' :: (elem.render.toList ++ tail)) stop
      _ :=
    Takes.seq hpointer.opt (skips_append hnames.opens) htakes
  refine ⟨stop, hskips, (hnamed.alt_takes (takes_phrase .embeddedField rfl hbody)).imp ?_⟩
  rintro _ ⟨_, _, _, rfl, _, _, rfl, ⟨_, _, _, rfl, -⟩, node, rfl, hnode⟩ rule _ _ tag more fields
    hmore
  simp only [List.cons_append, List.nil_append, FieldList.ofFields, hnode, hmore]
  rfl

/-- The names of a field with its type, or the embedded type, without the tag. -/
theorem takesBefore_fieldHead {field : Field} (h : field.IsStructField)
    (hwell : field.type.IsReadable)
    (htype : TakesType field.type.render.toList field.type.reread) :
    TakesBefore FollowsField fieldHead (entryText { field with tag := none })
      (Declares field.names field.type.reread) := by
  cases hnames : field.names with
  | nil =>
    have htext : entryText ⟨[], field.type, none⟩ = field.type.render.toList := by
      rw [entryText, render_unnamed rfl rfl]
    have hembedded := h.embedded hnames
    rw [htext]
    cases hwell' : field.type with
    | name ident =>
      rw [hwell'] at hwell
      exact takesBefore_embeddedName rfl hwell
    | qualified package ident =>
      rw [hwell'] at hwell
      exact takesBefore_embeddedName rfl hwell
    | pointer elem =>
      rw [hwell'] at hwell hembedded
      cases hwell with
      | pointer helem =>
        have hsame : elem.reread = elem := by
          cases elem <;> first | rfl | cases hembedded
        have hrender : (TypeExpr.pointer elem).render.toList = '*' :: elem.render.toList := by
          rw [TypeExpr.render, String.toList_append]
          rfl
        rw [TypeExpr.reread, hsame, hrender]
        exact takesBefore_embeddedPointer hembedded helem
    | _ =>
      rw [hwell'] at hembedded
      cases hembedded
  | cons name names =>
    have hall := List.all_eq_true.mp h.names
    rw [hnames] at hall
    rw [entryText_named rfl rfl]
    exact takesBefore_namedField (hall name List.mem_cons_self)
      (fun name hname => hall name (List.mem_cons_of_mem _ hname)) htype

/-- What comes after an item between braces: a semicolon or a line end, or the closing brace. -/
def FollowsItem (tail rest : List Char) : Prop :=
  Follows tail rest ∧ ∃ c after, rest = c :: after ∧ (c = ';' ∨ c = '\n' ∨ c = '\x7d')

theorem FollowsItem.field (h : FollowsItem tail rest) : FollowsField tail rest := by
  obtain ⟨hfollows, c, after, rfl, rfl | rfl | rfl⟩ := h
  · exact ⟨hfollows, nofun⟩
  · exact ⟨hfollows, nofun⟩
  · exact ⟨hfollows, nofun⟩

theorem FollowsItem.refuses_fieldTag (h : FollowsItem tail rest) :
    Refuses .spaced (.call .fieldTag) rest := by
  have hhead : ∀ {rule : Rule} {s : String} {second : Pattern} {c : Char},
      ruleBody rule = .seq (text s) second → s.toList = [c] → c ∈ ['"', '\x60'] →
      Refuses .token (.call rule) rest := by
    intro rule s second c hbody hs hc
    obtain ⟨-, d, after, rfl, hd⟩ := h
    refine Refuses.call ?_
    rw [hbody]
    refine Refuses.seq (refuses_oneChar hs ?_)
    rintro rfl
    rcases hd with rfl | rfl | rfl
    · revert hc
      decide
    · revert hc
      decide
    · revert hc
      decide
  exact Refuses.call ((hhead rfl rfl (by decide)).alt (hhead rfl rfl (by decide)))

/-- A tag as it follows a field. -/
def tagText : Option String → List Char
  | none => []
  | some tag => ' ' :: tag.toList

theorem entryText_eq (field : Field) :
    entryText field = entryText { field with tag := none } ++ tagText field.tag := by
  obtain ⟨names, type, tag⟩ := field
  cases tag with
  | none => exact (List.append_nil _).symm
  | some tag =>
    rw [entryText, Field.render, renderEntry, String.toList_append, String.toList_append,
      List.append_assoc]
    rfl

theorem adds_of_declares {field : Field} {nodes : List Node}
    (h : Makes .fieldDecl (Joined (Declares field.names field.type)
      fun right => right.head?.map Node.text = field.tag) nodes) :
    Adds FieldList.ofFields field nodes := by
  obtain ⟨start, stop, _, rfl, left, right, rfl, hleft, hright⟩ := h
  intro more fields hmore
  have hfields := hleft .fieldDecl start stop right more fields hmore
  rw [hright] at hfields
  exact hfields

/-- **A field is read with its tag.** -/
theorem takesBefore_field {field : Field} (h : field.IsStructField)
    (hwell : field.type.IsReadable)
    (htype : TakesType field.type.render.toList field.type.reread) :
    TakesBefore FollowsItem (.call .fieldDecl) (entryText field)
      (Adds FieldList.ofFields field.reread) := by
  have hhead := takesBefore_fieldHead h hwell htype
  rw [entryText_eq]
  refine ⟨isOpening_append hhead.opens, fun {tail rest} hfollows => ?_⟩
  rw [List.append_assoc]
  cases htag : field.tag with
  | none =>
    obtain ⟨stop, hskips, htakes⟩ := hhead.takes hfollows.field
    have hbody : Takes .spaced (ruleBody .fieldDecl)
        (entryText { field with tag := none } ++ tail) rest _ :=
      Takes.seq htakes hskips hfollows.refuses_fieldTag.opt
    refine ⟨rest, hfollows.1.skips_rest, (takes_phrase .fieldDecl rfl hbody).imp ?_⟩
    rintro _ ⟨start, stop, _, rfl, left, _, rfl, hleft, rfl⟩
    exact adds_of_declares ⟨start, stop, _, rfl, left, [], rfl, hleft, htag.symm⟩
  | some tag =>
    have hisTag := h.tag tag htag
    have hstop : isStop (tag.toList ++ tail) = true := isStop_of_isTag hisTag
    have hcomma : ∀ after, tag.toList ++ tail ≠ ',' :: after := by
      rcases cases_of_isTag hisTag with ⟨inner, hchars, -⟩ | ⟨inner, hchars, -⟩
      · rw [hchars]
        nofun
      · rw [hchars]
        nofun
    obtain ⟨stop, hskips, htakes⟩ := hhead.takes ⟨follows_blank hstop, hcomma⟩
    have hbody : Takes .spaced (ruleBody .fieldDecl)
        (entryText { field with tag := none } ++ ' ' :: (tag.toList ++ tail)) tail _ :=
      Takes.seq htakes hskips (takes_fieldTag hisTag tail).opt
    refine ⟨tail, hfollows.1.skips, (takes_phrase .fieldDecl rfl hbody).imp ?_⟩
    rintro _ ⟨start, stop, _, rfl, left, _, rfl, hleft, hright⟩
    obtain ⟨node, rfl, -, htext⟩ := text_of_spells hright
    have hfound : [node].head?.map Node.text = field.reread.tag := by
      rw [Field.reread, htag, List.head?_cons, Option.map_some, htext]
    exact adds_of_declares ⟨start, stop, _, rfl, left, _, rfl, hleft, hfound⟩

/-! ## 5. Members of interfaces -/

/-- The text of a member. -/
def memberText : Field → List Char
  | ⟨name :: _, .function params results, _⟩ =>
    name.toList ++ (renderSignature params results).toList
  | field => field.type.render.toList

/-- **A method is read as its name and its signature.** -/
theorem takesBefore_method {name : String} {params results params' results' : FieldList}
    (hname : isName name = true)
    (h : TakesBefore Follows (.call .signature) (renderSignature params results).toList
      (Signs params' results'))
    (hparen : ∃ cs, (renderSignature params results).toList = '(' :: cs) :
    TakesBefore FollowsItem (.call .methodSpec)
      (memberText ⟨[name], .function params results, none⟩)
      (Adds FieldList.ofMembers ⟨[name], .function params' results', none⟩) := by
  refine ⟨isOpening_append (isOpening_of_isName hname), fun {tail rest} hfollows => ?_⟩
  obtain ⟨stop, hskips, htakes⟩ := h.takes hfollows.1
  obtain ⟨cs, hchars⟩ := hparen
  rw [hchars] at htakes
  have hbody : Takes .spaced (ruleBody .methodElem) (name.toList ++ ('(' :: cs ++ tail)) stop _ :=
    Takes.seq (takes_identifier nofun hname rfl) (skips_of_noGap rfl) htakes
  have htext : memberText ⟨[name], .function params results, none⟩ ++ tail =
      name.toList ++ ('(' :: cs ++ tail) := by
    rw [memberText, hchars, List.append_assoc]
  rw [htext]
  refine ⟨stop, hskips, (takes_phrase .methodSpec rfl
    (Takes.alt (takes_phrase .methodElem rfl hbody))).imp ?_⟩
  rintro _ ⟨_, _, _, rfl, _, _, _, rfl, _, _, rfl, hident, hsignature⟩ more fields hmore
  obtain ⟨node, rfl, -, hnode⟩ := text_of_spells hident
  obtain ⟨_, _, _, _, _, _, _, _, rfl, hparams, hresults⟩ := hsignature
  simp only [List.cons_append, List.nil_append, FieldList.ofMembers, hparams, hresults, hmore,
    hnode]
  rfl

theorem takesBefore_embeddedElem {type : TypeExpr} (htype : type.isTypeName = true)
    (h : type.IsReadable) :
    TakesBefore FollowsItem (.call .methodSpec) type.render.toList
      (Adds FieldList.ofMembers ⟨[], type, none⟩) := by
  have hnames := takesBefore_embeddedNames htype h
  refine ⟨hnames.opens, fun {tail rest} hfollows => ?_⟩
  obtain ⟨stop, hskips, htakes⟩ := hnames.takes hfollows.1
  obtain ⟨mid, next, P, hmid, hnext, hident⟩ := takes_identifier_of_isTypeName htype h hfollows.1
  have hparen : ∀ after, next ≠ '(' :: after := by
    rcases hnext with rfl | ⟨after, rfl⟩
    · rintro after rfl
      cases hfollows.1.stop
    · nofun
  have hmethod : Refuses .spaced (.call .methodElem) (type.render.toList ++ tail) :=
    Refuses.call (Takes.seq_refuses hident hmid (refuses_signature hparen))
  refine ⟨stop, hskips, (takes_phrase .methodSpec rfl
    (hmethod.alt_takes (takes_phrase .embeddedElem rfl htakes))).imp ?_⟩
  rintro _ ⟨_, _, _, rfl, _, _, _, rfl, node, rfl, hnode⟩ more fields hmore
  simp only [List.cons_append, List.nil_append, FieldList.ofMembers, hnode, hmore]
  rfl

/-! ## 6. The types between braces -/

theorem refuses_embeddedNames (rest : List Char) :
    Refuses .spaced embeddedNames ('\x7d' :: rest) :=
  (refuses_of_begins (by decide) rfl).alt (refuses_of_begins (by decide) rfl)

theorem refuses_identifier_brace {mode : Mode} (rest : List Char) :
    Refuses mode (.call .identifier) ('\x7d' :: rest) :=
  refuses_identifier_of_start fun _ _ h => by cases h; rfl

theorem refuses_fieldDecl (rest : List Char) :
    Refuses .spaced (.call .fieldDecl) ('\x7d' :: rest) := by
  have hnamed : Refuses .spaced (.call .namedField) ('\x7d' :: rest) :=
    Refuses.call (Refuses.seq (Refuses.call (Refuses.seq (refuses_identifier_brace rest))))
  have hpointer : Refuses .spaced (.call .embeddedPointer) ('\x7d' :: rest) :=
    Refuses.call (refuses_text_of_head rfl nofun)
  have hembedded : Refuses .spaced (.call .embeddedField) ('\x7d' :: rest) :=
    Refuses.call (Takes.seq_refuses hpointer.opt (skips_of_noGap rfl) (refuses_embeddedNames rest))
  exact Refuses.call (Refuses.seq (hnamed.alt hembedded))

theorem refuses_methodSpec (rest : List Char) :
    Refuses .spaced (.call .methodSpec) ('\x7d' :: rest) :=
  Refuses.call (Refuses.alt (Refuses.call (Refuses.seq (refuses_identifier_brace rest)))
    (Refuses.call (refuses_embeddedNames rest)))

/-- Items as they stand between braces. -/
def blockText (write : Field → List Char) : List Field → List Char
  | [] => ['\x7b', '\x7d']
  | first :: rest =>
    ' ' :: '\x7b' :: ' ' :: (write first ++ (trailing [';', ' '] write rest ++ [' ', '\x7d']))

/-- Whether a text after the word for a type is read as items between braces. -/
def TakesBlock (item : Pattern) (read : List Node → Parsed FieldList) (cs : List Char)
    (fields : FieldList) : Prop :=
  ∀ tail, continues (cs ++ tail) = false ∧ ∃ next, Skips (cs ++ tail) next ∧
    Takes .spaced (block item) next tail fun nodes => read nodes = .ok fields

theorem takesBlock {item : Pattern} {read : List Node → Parsed FieldList}
    {write : Field → List Char} {fields : List Field} (hnil : read [] = .ok .nil)
    (hnone : ∀ rest, Refuses .spaced item ('\x7d' :: rest))
    (hitems : ∀ field ∈ fields, TakesBefore FollowsItem item (write field)
      (Adds read field.reread)) :
    TakesBlock item read (blockText write fields) (.ofList (fields.map Field.reread)) := by
  intro tail
  cases fields with
  | nil =>
    refine ⟨rfl, _, skips_of_noGap rfl, (takes_block_nil (hnone tail)).imp ?_⟩
    rintro _ rfl
    exact hnil
  | cons first rest =>
    have hfits : ∀ after, FollowsItem (';' :: after) (';' :: after) := fun after =>
      ⟨follows_of_isStop rfl, ';', after, rfl, .inl rfl⟩
    have hlast : FollowsItem (' ' :: '\x7d' :: tail) ('\x7d' :: tail) :=
      ⟨follows_blank rfl, '\x7d', tail, rfl, .inr (.inr rfl)⟩
    have hblock := takes_block hitems (fun _ _ _ _ _ => hfits _) hlast
    have htext : blockText write (first :: rest) ++ tail =
        ' ' :: '\x7b' :: ' ' ::
          (write first ++ (trailing [';', ' '] write rest ++ ' ' :: '\x7d' :: tail)) := by
      simp only [blockText, List.cons_append, List.append_assoc, List.nil_append]
    rw [htext]
    exact ⟨rfl, _, skips_blank rfl, hblock.imp fun nodes hnodes => read_of_each hnil hnodes⟩

/-- **A struct is read with its fields.** -/
theorem takesType_struct {cs : List Char} {fields : FieldList}
    (h : TakesBlock (.call .fieldDecl) FieldList.ofFields cs fields) :
    TakesType ("struct".toList ++ cs) (.struct fields) := by
  refine ⟨rfl, fun {tail rest} hfollows => ⟨tail, hfollows.skips, ?_⟩⟩
  obtain ⟨hcontinues, next, hnext, hblock⟩ := h tail
  have hbody : Takes .spaced (ruleBody .structType) ("struct".toList ++ (cs ++ tail)) tail _ :=
    Takes.seq (takes_keyword rfl rfl rfl hcontinues) hnext hblock
  refine takes_typeExpr [.pointerType, .sliceType, .arrayType, .mapType, .recvChanType, .chanType,
    .funcType] .structType rfl rfl ((takes_phrase .structType rfl hbody).imp ?_)
  rintro _ ⟨_, _, children, rfl, hchildren⟩
  refine ⟨_, rfl, ?_⟩
  rw [TypeExpr.ofNode, hchildren.nil_left]
  rfl

/-- **An interface is read with its members.** -/
theorem takesType_interface {cs : List Char} {members : FieldList}
    (h : TakesBlock (.call .methodSpec) FieldList.ofMembers cs members) :
    TakesType ("interface".toList ++ cs) (.interface members) := by
  refine ⟨rfl, fun {tail rest} hfollows => ⟨tail, hfollows.skips, ?_⟩⟩
  obtain ⟨hcontinues, next, hnext, hblock⟩ := h tail
  have hbody : Takes .spaced (ruleBody .interfaceType) ("interface".toList ++ (cs ++ tail)) tail
      _ :=
    Takes.seq (takes_keyword rfl rfl rfl hcontinues) hnext hblock
  refine takes_typeExpr [.pointerType, .sliceType, .arrayType, .mapType, .recvChanType, .chanType,
    .funcType, .structType] .interfaceType rfl rfl ((takes_phrase .interfaceType rfl hbody).imp ?_)
  rintro _ ⟨_, _, children, rfl, hchildren⟩
  refine ⟨_, rfl, ?_⟩
  rw [TypeExpr.ofNode, hchildren.nil_left]
  rfl

end GoStencil.Grammar
