import GoStencil.Proofs.TypeExpr.Members

/-!
# Types are read back

A type written on one line is read as an equivalent type: the same type, unless the writing adds
parentheses or the reading takes some for those of a result list.

* `TypeExpr.IsReadable.takes`: the text of a type is read as a type wherever it stands.
* `TypeExpr.parse_render_eq`: what is read from the text of a type.
* `TypeExpr.parse_render`: it is an equivalent type, mostly the type itself.
-/

namespace GoStencil

open Grammar

/-! ## 1. How texts of types begin -/

/-- The symbol that a type begins with, when no word begins it. -/
def TypeExpr.symbol? : TypeExpr → Option Char
  | .pointer _ => some '*'
  | .array _ _ => some '['
  | .variadic _ => some '.'
  | .paren _ => some '('
  | .channel .receive _ => some '<'
  | _ => none

/-- The name that a type begins with, when it begins with one. -/
def TypeExpr.firstName? : TypeExpr → Option String
  | .name ident => some ident
  | .qualified package _ => some package
  | _ => none

theorem toList_render_channel (direction : Direction) (value : TypeExpr) :
    (TypeExpr.channel direction value).render.toList =
      direction.keyword.toList ++ ' ' ::
        (if needsParens direction value then '(' :: (value.render.toList ++ [')'])
          else value.render.toList) := by
  rw [TypeExpr.render]
  split
  · simp only [String.toList_append, List.append_assoc]
    rfl
  · simp only [String.toList_append, List.append_assoc]
    rfl

theorem toList_render_map (key value : TypeExpr) :
    (TypeExpr.map key value).render.toList =
      "map".toList ++ '[' :: (key.render.toList ++ ']' :: value.render.toList) := by
  rw [TypeExpr.render]
  simp only [String.toList_append, List.append_assoc]
  rfl

theorem renderSignature_eq (params results : FieldList) :
    renderSignature params results = params.render ++ results.renderResults :=
  rfl

theorem toList_render_fields (fields : FieldList) : ∃ cs, fields.render.toList = '(' :: cs := by
  rw [FieldList.render, String.toList_append, String.toList_append]
  exact ⟨_, rfl⟩

theorem exists_toList_renderSignature (params results : FieldList) :
    ∃ cs, (renderSignature params results).toList = '(' :: cs := by
  obtain ⟨cs, hcs⟩ := toList_render_fields params
  rw [renderSignature_eq, String.toList_append, hcs]
  exact ⟨_, rfl⟩

theorem toList_render_function (params results : FieldList) :
    (TypeExpr.function params results).render.toList =
      "func".toList ++ (renderSignature params results).toList := by
  rw [TypeExpr.render, renderSignature]
  simp only [String.toList_append]
  rfl

theorem toList_render_struct (fields : FieldList) :
    (TypeExpr.struct fields).render.toList =
      "struct".toList ++ blockText entryText fields.toList := by
  cases fields with
  | nil => rfl
  | cons names type tag rest =>
    rw [TypeExpr.render]
    · rw [FieldList.renderEntries_eq, FieldList.toList, String.toList_append,
        String.toList_append, toList_intercalate_entries rfl, List.append_assoc, List.append_assoc]
      rfl
    · intro hnil
      cases hnil

theorem map_toList_renderMembers (members : FieldList) :
    members.renderMembers.map String.toList = members.toList.map memberText := by
  fun_induction FieldList.toList members with
  | case1 => rfl
  | case2 names type tag rest ih =>
    rw [List.map_cons, ← ih]
    cases names with
    | nil =>
      rw [FieldList.renderMembers]
      · rfl
      · intro _ _ _ _ hnamed
        cases hnamed
    | cons name names =>
      cases type with
      | function params results =>
        have htext : (name ++ "(" ++ ", ".intercalate params.renderEntries ++ ")" ++
            results.renderResults).toList =
            name.toList ++ (renderSignature params results).toList := by
          simp only [renderSignature, String.toList_append, List.append_assoc]
        rw [FieldList.renderMembers, List.map_cons, htext]
        rfl
      | _ =>
        rw [FieldList.renderMembers]
        · rfl
        · intro _ _ _ _ _ hfunction
          cases hfunction

theorem toList_render_interface (members : FieldList) :
    (TypeExpr.interface members).render.toList =
      "interface".toList ++ blockText memberText members.toList := by
  cases members with
  | nil => rfl
  | cons names type tag rest =>
    have htexts := map_toList_renderMembers (.cons names type tag rest)
    cases hmembers : (FieldList.cons names type tag rest).renderMembers with
    | nil =>
      rw [hmembers] at htexts
      cases htexts
    | cons first others =>
      rw [hmembers, List.map_cons, FieldList.toList, List.map_cons] at htexts
      obtain ⟨hfirst, hothers⟩ := List.cons.inj htexts
      have hflat : others.flatMap (fun item => "; ".toList ++ item.toList) =
          trailing [';', ' '] memberText rest.toList := by
        rw [← List.flatMap_map String.toList ("; ".toList ++ ·), hothers, List.flatMap_map]
        rfl
      rw [TypeExpr.render]
      · rw [hmembers, String.toList_append, String.toList_append, toList_intercalate_cons, hfirst,
          hflat, List.append_assoc, List.append_assoc]
        rfl
      · intro hnil
        cases hnil

theorem isBare_word {word : String} {c : Char} {cs : List Char} (hword : word ∈ reservedWords)
    (hc : continues [c] = false) : IsBare false (word.toList ++ c :: cs) :=
  .other fun tail => by
    rw [List.append_assoc]
    exact refuses_identifier_of_word hword hc

theorem isBare_symbol {c : Char} {cs : List Char} (hc : Text.isIdentifierStart c = false) :
    IsBare false (c :: cs) :=
  .other fun tail => refuses_identifier_of_start fun d rest h => by
    cases h
    exact hc

theorem isIdentifierStart_symbol {type : TypeExpr} {c : Char} (h : type.symbol? = some c) :
    Text.isIdentifierStart c = false := by
  unfold TypeExpr.symbol? at h
  split at h <;> cases h <;> decide

theorem exists_blockText (write : Field → List Char) (fields : List Field) :
    ∃ c cs, blockText write fields = c :: cs ∧ continues [c] = false := by
  cases fields with
  | nil => exact ⟨'\x7b', _, rfl, rfl⟩
  | cons => exact ⟨' ', _, rfl, rfl⟩

/-- A type begins with its symbol or with a word. -/
theorem TypeExpr.exists_head {type : TypeExpr}
    (hname : ∀ ident, type.firstName? = some ident → isName ident = true) : ∃ c cs,
    type.render.toList = c :: cs ∧
      (type.symbol? = some c ∨ type.symbol? = none ∧ Text.isIdentifierStart c = true) := by
  cases type with
  | name ident =>
    obtain ⟨c, cs, hchars, hstart, -, -⟩ := isName_iff.mp (hname ident rfl)
    exact ⟨c, cs, hchars, .inr ⟨rfl, hstart⟩⟩
  | qualified package ident =>
    obtain ⟨c, cs, hchars, hstart, -, -⟩ := isName_iff.mp (hname package rfl)
    rw [toList_render_qualified, hchars]
    exact ⟨c, _, rfl, .inr ⟨rfl, hstart⟩⟩
  | pointer =>
    rw [TypeExpr.render, String.toList_append]
    exact ⟨'*', _, rfl, .inl rfl⟩
  | array length elem =>
    cases length with
    | none =>
      rw [TypeExpr.render, String.toList_append]
      exact ⟨'[', _, rfl, .inl rfl⟩
    | some length =>
      rw [TypeExpr.render, String.toList_append, String.toList_append, String.toList_append]
      exact ⟨'[', _, rfl, .inl rfl⟩
  | «variadic» =>
    rw [TypeExpr.render, String.toList_append]
    exact ⟨'.', _, rfl, .inl rfl⟩
  | paren =>
    rw [TypeExpr.render, String.toList_append, String.toList_append]
    exact ⟨'(', _, rfl, .inl rfl⟩
  | channel direction value =>
    rw [toList_render_channel]
    cases direction with
    | both => exact ⟨'c', _, rfl, .inr ⟨rfl, by decide⟩⟩
    | send => exact ⟨'c', _, rfl, .inr ⟨rfl, by decide⟩⟩
    | receive => exact ⟨'<', _, rfl, .inl rfl⟩
  | map =>
    rw [toList_render_map]
    exact ⟨'m', _, rfl, .inr ⟨rfl, by decide⟩⟩
  | function =>
    rw [toList_render_function]
    exact ⟨'f', _, rfl, .inr ⟨rfl, by decide⟩⟩
  | struct =>
    rw [toList_render_struct]
    exact ⟨'s', _, rfl, .inr ⟨rfl, by decide⟩⟩
  | interface =>
    rw [toList_render_interface]
    exact ⟨'i', _, rfl, .inr ⟨rfl, by decide⟩⟩

namespace TypeExpr.IsReadable

theorem exists_head {type : TypeExpr} (h : type.IsReadable) : ∃ c cs,
    type.render.toList = c :: cs ∧
      (type.symbol? = some c ∨ type.symbol? = none ∧ Text.isIdentifierStart c = true) := by
  refine TypeExpr.exists_head fun ident hident => ?_
  cases h with
  | name hname =>
    cases hident
    exact hname
  | qualified hpackage _ =>
    cases hident
    exact hpackage
  | _ => cases hident

theorem head_ne {type : TypeExpr} (h : type.IsReadable) {d : Char}
    (hd : Text.isIdentifierStart d = false) (hsymbol : type.symbol? ≠ some d)
    (tail after : List Char) : type.render.toList ++ tail ≠ d :: after := by
  obtain ⟨c, cs, hchars, hc⟩ := h.exists_head
  rw [hchars]
  intro heq
  injection heq with hhead
  rw [hhead] at hc
  rcases hc with hc | ⟨-, hc⟩
  · exact hsymbol hc
  · rw [hd] at hc
    cases hc

/-- A type has at most the name it consists of at its start. -/
theorem isBare {type : TypeExpr} (h : type.IsReadable) :
    IsBare type.isOwnName type.render.toList := by
  obtain ⟨c, cs, hchars, hhead | ⟨hsymbol, -⟩⟩ := h.exists_head
  · have hown : type.isOwnName = false := by
      cases type <;> first | rfl | cases hhead
    rw [hchars, hown]
    exact isBare_symbol (isIdentifierStart_symbol hhead)
  cases h with
  | name hident => exact .name hident
  | qualified hpackage hident =>
    rw [toList_render_qualified]
    exact .qualified hpackage hident
  | @channel direction value _ =>
    rw [toList_render_channel]
    cases direction with
    | both => exact isBare_word (by decide : "chan" ∈ reservedWords) rfl
    | send =>
      show IsBare false ("chan".toList ++ '<' :: '-' :: ' ' :: _)
      exact isBare_word (by decide) rfl
    | receive => cases hsymbol
  | map _ _ =>
    rw [toList_render_map]
    exact isBare_word (by decide) rfl
  | @function params results _ _ _ _ _ =>
    obtain ⟨cs, hcs⟩ := exists_toList_renderSignature params results
    rw [toList_render_function, hcs]
    exact isBare_word (by decide) rfl
  | @struct fields _ _ =>
    obtain ⟨c, cs, hcs, hc⟩ := exists_blockText entryText fields.toList
    rw [toList_render_struct, hcs]
    exact isBare_word (by decide) hc
  | @interface members _ _ =>
    obtain ⟨c, cs, hcs, hc⟩ := exists_blockText memberText members.toList
    rw [toList_render_interface, hcs]
    exact isBare_word (by decide) hc
  | _ => cases hsymbol

end TypeExpr.IsReadable

/-! ## 2. Types are read from their texts -/

/-- What reading a type says about its parts, where the type stands for them in other places: a
    function without its keyword, and a type without its parentheses. -/
def TypeExpr.TakesParts : TypeExpr → Prop
  | .function params results =>
    TakesBefore Follows (.call .signature) (renderSignature params results).toList
      (Signs params.reread results.reread.unwrapSingle)
  | .paren inner => inner.IsReadable ∧ TakesType inner.render.toList inner.reread
  | _ => True

/-- The type of a parameter is read when the type is read that it may take any number of. -/
theorem takesParam_of_variadicElem {type : TypeExpr} (h : type.variadicElem.IsReadable)
    (htakes : TakesType type.variadicElem.render.toList type.variadicElem.reread) :
    TakesParam type.render.toList type.reread ∧ IsBare type.isOwnName type.render.toList := by
  by_cases hvariadic : ∃ elem, type = .variadic elem
  · obtain ⟨elem, rfl⟩ := hvariadic
    have htext : (TypeExpr.variadic elem).render.toList = "...".toList ++ elem.render.toList := by
      rw [TypeExpr.render, String.toList_append]
    rw [htext]
    exact ⟨htakes.variadic, isBare_symbol (by decide)⟩
  · have hself : type.variadicElem = type := by
      cases type with
      | «variadic» elem => exact absurd ⟨elem, rfl⟩ hvariadic
      | _ => rfl
    rw [hself] at h htakes
    have hdot : type.symbol? ≠ some '.' := by
      intro hsymbol
      cases type with
      | channel direction _ => cases direction <;> cases hsymbol
      | «variadic» elem => exact hvariadic ⟨elem, rfl⟩
      | _ => cases hsymbol
    exact ⟨htakes.param (h.head_ne (by decide) hdot), h.isBare⟩

/-- The parentheses of a single result are those of a list of results. -/
theorem takesResults_paren {inner : TypeExpr} (h : inner.IsReadable)
    (htakes : TakesType inner.render.toList inner.reread) :
    TakesResults (' ' :: (TypeExpr.paren inner).render.toList)
      (.cons [] inner.reread none .nil) := by
  let single : FieldList := .cons [] inner none .nil
  have hmem : ∀ field ∈ single.toList, field = ⟨[], inner, none⟩ := fun field hfield =>
    List.mem_singleton.mp hfield
  have hshape : single.AreEntries :=
    ⟨fun field hfield => by rw [hmem field hfield]; rfl,
      fun field hfield => by rw [hmem field hfield], by
        rw [FieldList.toList, FieldList.toList, keepsNames, beginsWithoutType, keepsNames,
          Bool.or_true]
        rfl⟩
  have htext : (TypeExpr.paren inner).render = single.render := by
    rw [TypeExpr.render, FieldList.render]
    exact congrArg (fun text => "(" ++ text ++ ")") String.intercalate_singleton.symm
  rw [htext]
  refine takesResults_parameters (takesParameters hshape fun field hfield => ?_)
  rw [hmem field hfield]
  have hself : inner.variadicElem = inner := h.variadicElem_eq
  exact takesParam_of_variadicElem (hself.symm ▸ h) (hself.symm ▸ htakes)

theorem takesResults_single {type : TypeExpr} (h : type.IsReadable)
    (htakes : TakesType type.render.toList type.reread) (hparts : type.TakesParts) :
    TakesResults (' ' :: type.render.toList)
      (FieldList.unwrapSingle (.cons [] type.reread none .nil)) := by
  by_cases hparen : ∃ inner, type = .paren inner
  · obtain ⟨inner, rfl⟩ := hparen
    exact takesResults_paren hparts.1 hparts.2
  · have hsame : FieldList.unwrapSingle (.cons [] type.reread none .nil) =
        .cons [] type.reread none .nil := by
      cases type with
      | paren inner => exact absurd ⟨inner, rfl⟩ hparen
      | _ => rfl
    have hsymbol : type.symbol? ≠ some '(' := by
      intro hopens
      cases type with
      | paren inner => exact hparen ⟨inner, rfl⟩
      | channel direction _ => cases direction <;> cases hopens
      | _ => cases hopens
    rw [hsame]
    exact takesResults_type htakes (h.head_ne (by decide) hsymbol)

theorem takesResults {results : FieldList} (hshape : results.AreEntries)
    (hsingle : ∀ elem tag, results ≠ .cons [] (.variadic elem) tag .nil)
    (htypes : ∀ field ∈ results.toList, field.type.variadicElem.IsReadable)
    (htakes : ∀ field ∈ results.toList,
      TakesType field.type.variadicElem.render.toList field.type.variadicElem.reread ∧
        field.type.variadicElem.TakesParts) :
    TakesResults results.renderResults.toList results.reread.unwrapSingle := by
  have hlist : TakesParameters results.render.toList results.reread :=
    takesParameters hshape fun field hfield =>
      takesParam_of_variadicElem (htypes field hfield) (htakes field hfield).1
  cases results with
  | nil => exact takesResults_nil
  | cons names type tag rest =>
    by_cases hone : names = [] ∧ rest = .nil
    · obtain ⟨rfl, rfl⟩ := hone
      have hmem : (⟨[], type, tag⟩ : Field) ∈
          (FieldList.cons [] type tag .nil).toList := List.mem_singleton_self _
      have htag : tag = none := hshape.tags _ hmem
      have hself : type.variadicElem = type := by
        cases type with
        | «variadic» elem => exact absurd rfl (hsingle elem tag)
        | _ => rfl
      have htype := htypes _ hmem
      have htakesType := htakes _ hmem
      dsimp only at htype htakesType
      rw [hself] at htype htakesType
      rw [htag, FieldList.renderResults, String.toList_append]
      exact takesResults_single htype htakesType.1 htakesType.2
    · have htext : (FieldList.cons names type tag rest).renderResults.toList =
          ' ' :: (FieldList.cons names type tag rest).render.toList := by
        rw [FieldList.renderResults]
        · rw [FieldList.render, FieldList.renderEntries]
          simp only [String.toList_append]
          rfl
        · rintro rfl rfl
          exact hone ⟨rfl, rfl⟩
      have hsame : (FieldList.cons names type tag rest).reread.unwrapSingle =
          (FieldList.cons names type tag rest).reread := by
        cases names with
        | nil =>
          cases rest with
          | nil => exact absurd ⟨rfl, rfl⟩ hone
          | cons => cases type <;> rfl
        | cons => rfl
      rw [htext, hsame]
      exact takesResults_parameters hlist

/-- **A member is read**: a method as its name and its signature, or an embedded interface. -/
theorem takesBefore_member {field : Field} (h : field.IsMember)
    (htype : field.type.IsReadable) (hparts : field.type.TakesParts) :
    TakesBefore FollowsItem (.call .methodSpec) (memberText field)
      (Adds FieldList.ofMembers field.reread) := by
  obtain ⟨hshape, htag⟩ := h
  obtain ⟨names, type, tag⟩ := field
  dsimp only at hshape htag htype hparts
  subst htag
  rcases hshape with ⟨name, params, results, rfl, hname, rfl⟩ | ⟨rfl, hname⟩
  · exact takesBefore_method hname hparts (exists_toList_renderSignature params results)
  · have hself : type.reread = type := by
      cases type <;> first | rfl | cases hname
    have htext : memberText ⟨[], type, none⟩ = type.render.toList := by
      rw [memberText]
      intro _ _ _ _ _ hnamed
      cases hnamed
    rw [htext, Field.reread, hself]
    exact takesBefore_embeddedElem hname htype

/-- **A readable type is read from its text** wherever it stands. -/
theorem TypeExpr.IsReadable.takes {type : TypeExpr} (h : type.IsReadable) :
    TakesType type.render.toList type.reread ∧ type.TakesParts := by
  induction h with
  | name hident => exact ⟨takesType_name hident, trivial⟩
  | qualified hpackage hident =>
    rw [toList_render_qualified]
    exact ⟨takesType_qualified hpackage hident, trivial⟩
  | pointer _ ih =>
    rw [TypeExpr.render, String.toList_append]
    exact ⟨ih.1.pointer, trivial⟩
  | slice _ ih =>
    rw [TypeExpr.render, String.toList_append]
    exact ⟨ih.1.slice, trivial⟩
  | array hlength _ ih =>
    rw [TypeExpr.render, String.toList_append, String.toList_append, String.toList_append,
      List.append_assoc, List.append_assoc]
    exact ⟨ih.1.array hlength, trivial⟩
  | paren hinner ih =>
    rw [TypeExpr.render, String.toList_append, String.toList_append]
    exact ⟨ih.1.paren, hinner, ih.1⟩
  | @channel direction value hvalue ih =>
    refine ⟨?_, trivial⟩
    rw [toList_render_channel, TypeExpr.reread]
    cases direction with
    | receive => exact ih.1.receive
    | send => exact ih.1.send
    | both =>
      by_cases hparens : needsParens .both value = true
      · rw [if_pos hparens, if_pos hparens]
        exact ih.1.paren.both fun _ _ h => by cases h
      · have hsymbol : value.symbol? ≠ some '<' := by
          intro harrow
          cases value with
          | channel direction _ =>
            cases direction with
            | receive => exact absurd rfl hparens
            | _ => cases harrow
          | _ => cases harrow
        rw [if_neg hparens, if_neg hparens]
        exact ih.1.both (hvalue.head_ne (by decide) hsymbol)
  | map _ _ ihkey ihvalue =>
    rw [toList_render_map]
    exact ⟨ihkey.1.map ihvalue.1, trivial⟩
  | @function params results hparams hresults hsingle hparamTypes hresultTypes ihparams
      ihresults =>
    have hlist : TakesParameters params.render.toList params.reread :=
      takesParameters hparams fun field hfield =>
        takesParam_of_variadicElem (hparamTypes field hfield) (ihparams field hfield).1
    have hsignature : (TypeExpr.function params results).TakesParts := by
      rw [TypeExpr.TakesParts, renderSignature_eq, String.toList_append]
      exact takesBefore_signature hlist (takesResults hresults hsingle hresultTypes ihresults)
    rw [toList_render_function]
    exact ⟨hsignature.function (exists_toList_renderSignature params results), hsignature⟩
  | @struct fields hfields htypes ih =>
    rw [toList_render_struct, TypeExpr.reread, FieldList.reread_eq]
    exact ⟨takesType_struct (takesBlock rfl refuses_fieldDecl fun field hfield =>
      takesBefore_field (hfields field hfield) (htypes field hfield) (ih field hfield).1), trivial⟩
  | @interface members hmembers htypes ih =>
    rw [toList_render_interface, TypeExpr.reread, FieldList.reread_eq]
    exact ⟨takesType_interface (takesBlock rfl refuses_methodSpec fun field hfield =>
      takesBefore_member (hmembers field hfield) (htypes field hfield) (ih field hfield).2),
      trivial⟩

/-! ## 3. The whole text -/

theorem takes_endOfInput :
    Takes .spaced (.call .endOfInput) [] [] (Makes .endOfInput fun _ => True) :=
  fun offset => ⟨_, offset, .call (.atEnd .spaced ⟨offset, []⟩), _, _, [], rfl, trivial⟩

/-- A text that is a type and nothing else is parsed as it is read. -/
theorem parse_of_takesType {text : String} {type : TypeExpr} (h : TakesType text.toList type) :
    TypeExpr.parse text = .ok type := by
  obtain ⟨stop, hskips, htakes⟩ := h.takes (follows_of_isStop (rfl : isStop [] = true))
  have hbody := Takes.seq htakes hskips takes_endOfInput
  have hstart : Skips (text.toList ++ []) (text.toList ++ []) := skips_append h.opens
  rw [List.append_nil] at hbody hstart
  obtain ⟨_, offset, hgap, rfl⟩ := hstart 0
  obtain ⟨_, offset', hreads, left, right, rfl, hleft, -⟩ := hbody offset
  obtain ⟨_, _, form, rfl, hnode⟩ := hleft.exists_node
  have hwhole : declarations.Reads .spaced (.call .typeExprOnly) (Cursor.start text)
      (some ([⟨.typeExprOnly, Cursor.start text, ⟨offset', []⟩, _⟩], ⟨offset', []⟩)) :=
    .call (.seq (.atStart .spaced (Cursor.start text)) hgap hreads)
  have hparse := parse_eq_some_iff.mpr ⟨_, hwhole⟩
  unfold TypeExpr.parse
  rw [hparse]
  exact hnode

/-- **What is read from the text of a type**, when the type is well-formed. -/
theorem TypeExpr.parse_render_eq {type : TypeExpr} (h : type.IsWellFormed) :
    TypeExpr.parse type.render = .ok type.reread :=
  parse_of_takesType h.isReadable.takes.1

/-- **Types are read back**: what is read from the text of a type is an equivalent type, and the
    type itself when no parentheses are added to it or lost from it. -/
theorem TypeExpr.parse_render {type : TypeExpr} (h : type.IsWellFormed) :
    ∃ read, TypeExpr.parse type.render = .ok read ∧ read.equivalent type = true ∧
      (type.everywhere TypeExpr.addsNoParens = true →
        type.everywhere TypeExpr.losesNoParens = true → read = type) :=
  ⟨type.reread, TypeExpr.parse_render_eq h, type.equivalent_reread, type.reread_eq_self⟩

/-- A handler by name: `map[string]func(a, b *pkg.T, rest ...[]int)`. -/
theorem TypeExpr.parse_render_handlers :
    TypeExpr.parse (TypeExpr.map (.name "string") (.function
      (.cons ["a", "b"] (.pointer (.qualified "pkg" "T")) none
        (.cons ["rest"] (.variadic (.array none (.name "int"))) none .nil)) .nil)).render =
      .ok (.map (.name "string") (.function
        (.cons ["a", "b"] (.pointer (.qualified "pkg" "T")) none
          (.cons ["rest"] (.variadic (.array none (.name "int"))) none .nil)) .nil)) := by
  have hparams : FieldList.AreParameters
      (.cons ["a", "b"] (.pointer (.qualified "pkg" "T")) none
        (.cons ["rest"] (.variadic (.array none (.name "int"))) none .nil)) :=
    ⟨by decide +kernel, by decide, .inr (by decide)⟩
  have hwell : IsWellFormed (.map (.name "string") (.function
      (.cons ["a", "b"] (.pointer (.qualified "pkg" "T")) none
        (.cons ["rest"] (.variadic (.array none (.name "int"))) none .nil)) .nil)) := by
    refine .map (.name (by decide +kernel)) (.function hparams ⟨nofun, nofun, .inl nofun⟩ nofun
      ?_ nofun)
    intro field hfield
    rcases List.mem_cons.mp hfield with rfl | hfield
    · exact .pointer (.qualified (by decide +kernel) (by decide +kernel))
    · cases List.mem_singleton.mp hfield
      exact .slice (.name (by decide +kernel))
  obtain ⟨read, hparse, -, hself⟩ := TypeExpr.parse_render hwell
  rw [hparse, hself rfl rfl]

/-- The parentheses of a single result, as in `func() (T)`, are taken for those of a result list. -/
theorem TypeExpr.parse_render_loses_parens :
    ¬ ∀ type : TypeExpr, type.IsWellFormed → ∃ read, TypeExpr.parse type.render = .ok read ∧
      read.equivalent type = true ∧
        (type.everywhere TypeExpr.addsNoParens = true → read = type) := by
  intro h
  have hresults : FieldList.AreParameters (.cons [] (.paren (.name "T")) none .nil) :=
    ⟨by decide, by decide, .inl (by decide)⟩
  have hwell : IsWellFormed (.function .nil (.cons [] (.paren (.name "T")) none .nil)) := by
    refine .function ⟨nofun, nofun, .inl nofun⟩ hresults nofun nofun fun field hfield => ?_
    cases List.mem_singleton.mp hfield
    exact .paren (.name (by decide +kernel))
  obtain ⟨read, hparse, -, hself⟩ := h _ hwell
  rw [hself rfl, TypeExpr.parse_render_eq hwell] at hparse
  cases hparse

end GoStencil
