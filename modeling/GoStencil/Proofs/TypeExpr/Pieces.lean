import GoStencil.Proofs.Stream.Cuts
import GoStencil.Proofs.TypeExpr.Parsed
import GoStencil.Proofs.TypeExpr.RoundTrip

/-!
# Types as pieces of a stream

The text of a type is written piece by piece: words, symbols, literals, and groups between brackets.

* `TypeExpr.pieces`, `FieldList.entryPieces` and the like: the pieces, as the printer writes them.
* `TypeExpr.sourceOf_pieces`: they write what the printer does.
* `TypeExpr.isSpelled`: names are names, tags are literals, and lengths are of some kind. Types that
  have been parsed are like that, if their lengths are.
* `TypeExpr.isCut_pieces`: then the pieces are what is read of the text, if the lengths are groups.
-/

namespace GoStencil

open Body Grammar

/-! ## 1. Pieces -/

/-- The words that open a channel type. -/
def Direction.pieces : Direction → List Segment
  | .both => [.ident "chan"]
  | .send => [.ident "chan", .text "<-"]
  | .receive => [.text "<-", .ident "chan"]

/-- Names with commas between them. -/
def namePieces (names : List String) : List Segment :=
  separated ", " (names.map fun name => [.ident name])

/-- An entry with its names, the pieces of its type, and its tag. -/
def entryPieces (names : List String) (type : List Segment) (tag : Option String) : List Segment :=
  (if names.isEmpty then [] else namePieces names ++ [.text " "]) ++ type ++
    tag.toList.flatMap fun tag => [.text " ", .text tag]

/-- Parameters in parentheses. -/
def listPieces (entries : List (List Segment)) : List Segment :=
  enclosed '(' ')' (separated ", " entries)

/-- Items in braces. -/
def blockPieces : List (List Segment) → List Segment
  | [] => enclosed '\x7b' '\x7d' []
  | items => .text " " ::
      enclosed '\x7b' '\x7d' (.text " " :: (separated "; " items ++ [.text " "]))

mutual

/-- The pieces of a type. -/
def TypeExpr.pieces : TypeExpr → List Segment
  | .name ident => [.ident ident]
  | .qualified package ident => [.ident package, .text ".", .ident ident]
  | .pointer elem => .text "*" :: elem.pieces
  | .array length elem => enclosed '[' ']' (length.toList.flatMap lengthPieces) ++ elem.pieces
  | .variadic elem => .text "..." :: elem.pieces
  | .paren inner => enclosed '(' ')' inner.pieces
  | .channel direction value =>
    direction.pieces ++ .text " " ::
      if needsParens direction value then enclosed '(' ')' value.pieces else value.pieces
  | .map key value => .ident "map" :: (enclosed '[' ']' key.pieces ++ value.pieces)
  | .function params results =>
    .ident "func" :: (listPieces params.entryPieces ++ results.resultPieces)
  | .struct fields => .ident "struct" :: blockPieces fields.entryPieces
  | .interface members => .ident "interface" :: blockPieces members.memberPieces

/-- The pieces of each entry. -/
def FieldList.entryPieces : FieldList → List (List Segment)
  | .nil => []
  | .cons names type tag rest => GoStencil.entryPieces names type.pieces tag :: rest.entryPieces

/-- The pieces of a result list. -/
def FieldList.resultPieces : FieldList → List Segment
  | .nil => []
  | .cons [] type _ .nil => .text " " :: type.pieces
  | .cons names type tag rest =>
    .text " " :: listPieces (GoStencil.entryPieces names type.pieces tag :: rest.entryPieces)

/-- The pieces of each member of an interface. -/
def FieldList.memberPieces : FieldList → List (List Segment)
  | .nil => []
  | .cons (name :: _) (.function params results) _ rest =>
    (.ident name :: (listPieces params.entryPieces ++ results.resultPieces)) :: rest.memberPieces
  | .cons _ type _ rest => type.pieces :: rest.memberPieces

end

/-! ## 2. The printer writes the pieces -/

theorem sourceOf_enclosed (opening closing : Char) (inside : List Segment) :
    sourceOf (enclosed opening closing inside) =
      String.ofList [opening] ++ (sourceOf inside ++ String.ofList [closing]) := by
  simp only [enclosed, sourceOf_cons, sourceOf_append, sourceOf_nil, Segment.source,
    String.append_empty]

theorem sourceOf_parens (inside : List Segment) :
    sourceOf (enclosed '(' ')' inside) = "(" ++ (sourceOf inside ++ ")") :=
  sourceOf_enclosed '(' ')' inside

theorem sourceOf_namePieces (names : List String) :
    sourceOf (namePieces names) = ", ".intercalate names := by
  simp [namePieces, sourceOf_separated, Segment.source, Function.comp_def]

theorem sourceOf_entryPieces (names : List String) (type : List Segment) (tag : Option String) :
    sourceOf (entryPieces names type tag) = renderEntry names (sourceOf type) tag := by
  unfold entryPieces renderEntry
  cases tag <;> cases hempty : names.isEmpty <;>
    simp [sourceOf_namePieces, Segment.source, String.append_assoc]

theorem sourceOf_listPieces (entries : List (List Segment)) :
    sourceOf (listPieces entries) = "(" ++ (", ".intercalate (entries.map sourceOf) ++ ")") := by
  rw [listPieces, sourceOf_parens, sourceOf_separated]

theorem sourceOf_blockPieces_cons (item : List Segment) (items : List (List Segment)) :
    sourceOf (blockPieces (item :: items)) =
      " \x7b " ++ ("; ".intercalate ((item :: items).map sourceOf) ++ " \x7d") := by
  rw [← String.toList_inj]
  simp [blockPieces, sourceOf_enclosed, sourceOf_separated, Segment.source]

theorem FieldList.exists_memberPieces_cons (names : List String) (type : TypeExpr)
    (tag : Option String) (rest : FieldList) :
    ∃ item, (FieldList.cons names type tag rest).memberPieces = item :: rest.memberPieces := by
  cases names <;> cases type <;> exact ⟨_, rfl⟩

mutual

/-- **The pieces of a type write what the printer does.** -/
theorem TypeExpr.sourceOf_pieces : ∀ type : TypeExpr, sourceOf type.pieces = type.render
  | .name _ => by simp [TypeExpr.pieces, TypeExpr.render, Segment.source]
  | .qualified _ _ => by
    simp [TypeExpr.pieces, TypeExpr.render, Segment.source, String.append_assoc]
  | .pointer elem => by
    simp [TypeExpr.pieces, TypeExpr.render, Segment.source, TypeExpr.sourceOf_pieces elem]
  | .array none elem => by
    rw [← String.toList_inj]
    simp [TypeExpr.pieces, TypeExpr.render, sourceOf_enclosed,
      TypeExpr.sourceOf_pieces elem]
  | .array (some length) elem => by
    rw [← String.toList_inj]
    simp [TypeExpr.pieces, TypeExpr.render, sourceOf_lengthPieces, sourceOf_enclosed,
      TypeExpr.sourceOf_pieces elem]
  | .variadic elem => by
    simp [TypeExpr.pieces, TypeExpr.render, Segment.source, TypeExpr.sourceOf_pieces elem]
  | .paren inner => by
    rw [← String.toList_inj]
    simp [TypeExpr.pieces, TypeExpr.render, sourceOf_parens, TypeExpr.sourceOf_pieces inner]
  | .channel direction value => by
    rw [← String.toList_inj, toList_render_channel]
    have ih := TypeExpr.sourceOf_pieces value
    cases direction <;> cases hparens : needsParens _ value <;>
      simp [TypeExpr.pieces, Direction.pieces, Direction.keyword, Segment.source, sourceOf_parens,
        hparens, ih]
  | .map key value => by
    rw [← String.toList_inj, toList_render_map]
    simp [TypeExpr.pieces, Segment.source, sourceOf_enclosed, TypeExpr.sourceOf_pieces key,
      TypeExpr.sourceOf_pieces value]
  | .function params results => by
    rw [← String.toList_inj, toList_render_function]
    simp [TypeExpr.pieces, Segment.source, sourceOf_listPieces, renderSignature,
      FieldList.sourceOf_entryPieces params, FieldList.sourceOf_resultPieces results]
  | .struct .nil => rfl
  | .struct (.cons names type tag rest) => by
    have ih := FieldList.sourceOf_entryPieces (.cons names type tag rest)
    rw [FieldList.entryPieces] at ih
    rw [← String.toList_inj]
    simp [TypeExpr.pieces, TypeExpr.render, FieldList.entryPieces, Segment.source,
      sourceOf_blockPieces_cons, ← ih]
  | .interface .nil => rfl
  | .interface (.cons names type tag rest) => by
    have ih := FieldList.sourceOf_memberPieces (.cons names type tag rest)
    obtain ⟨item, hitem⟩ := FieldList.exists_memberPieces_cons names type tag rest
    rw [hitem] at ih
    rw [← String.toList_inj]
    simp [TypeExpr.pieces, TypeExpr.render, hitem, Segment.source, sourceOf_blockPieces_cons, ← ih]

theorem FieldList.sourceOf_entryPieces : ∀ fields : FieldList,
    fields.entryPieces.map sourceOf = fields.renderEntries
  | .nil => rfl
  | .cons names type tag rest => by
    simp [FieldList.entryPieces, FieldList.renderEntries, GoStencil.sourceOf_entryPieces,
      TypeExpr.sourceOf_pieces type, FieldList.sourceOf_entryPieces rest]

theorem FieldList.sourceOf_resultPieces : ∀ results : FieldList,
    sourceOf results.resultPieces = results.renderResults
  | .nil => rfl
  | .cons names type tag rest => by
    have ih := TypeExpr.sourceOf_pieces type
    have ihrest := FieldList.sourceOf_entryPieces rest
    rw [← String.toList_inj]
    match names, rest with
    | [], .nil => simp [FieldList.resultPieces, FieldList.renderResults, Segment.source, ih]
    | [], .cons .. | name :: names, _ =>
      simp [FieldList.resultPieces, FieldList.renderResults, Segment.source, sourceOf_listPieces,
        GoStencil.sourceOf_entryPieces, ih, ihrest]

theorem FieldList.sourceOf_memberPieces : ∀ members : FieldList,
    members.memberPieces.map sourceOf = members.renderMembers
  | .nil => rfl
  | .cons names type _ rest => by
    have ih := TypeExpr.sourceOf_pieces type
    have ihrest := FieldList.sourceOf_memberPieces rest
    cases names with
    | nil => cases type <;> simp [FieldList.memberPieces, FieldList.renderMembers, ih, ihrest]
    | cons name names =>
      cases type with
      | function params results =>
        -- the signature is what follows the keyword of the function
        have hsignature := congrArg String.toList ih
        simp only [TypeExpr.pieces, sourceOf_cons, String.toList_append, toList_render_function,
          Segment.source, List.append_cancel_left_eq, String.toList_inj] at hsignature
        simp [FieldList.memberPieces, FieldList.renderMembers, Segment.source, hsignature,
          renderSignature, ihrest, String.append_assoc]
      | _ => simp [FieldList.memberPieces, FieldList.renderMembers, ih, ihrest]

end

/-! ## 3. Types whose words are spelled as such -/

/-- Whether an entry has names for names and a literal for a tag. -/
def Field.isSpelled (field : Field) : Bool :=
  field.names.all isName && field.tag.all isTag

/-- Whether an entry has names for names and no tag. -/
def Field.isEntry (field : Field) : Bool :=
  field.isSpelled && field.tag.isNone

/-- Whether an entry has no name, or is a function with one. -/
def Field.isMethodIfNamed (field : Field) : Bool :=
  match field.names, field.type with
  | [_], .function _ _ => true
  | names, _ => names.isEmpty

/-- Whether a text is a decimal number. -/
def isNumber (length : String) : Bool :=
  !length.toList.isEmpty && length.toList.all Char.isDigit

/-- Whether a type is no array, or one whose length is a number or left out. -/
def TypeExpr.hasDecimalLength : TypeExpr → Bool
  | .array (some length) _ => isNumber length
  | _ => true

section Lengths

variable (p : String → Bool)

/-- Whether a type is no array, or one whose length is of some kind or left out. -/
def TypeExpr.hasLength : TypeExpr → Bool
  | .array (some length) _ => p length
  | _ => true

/-- Whether a type has names for names, literals for tags and a length of some kind, as far as the
    types in it have. -/
def TypeExpr.isSpelled : TypeExpr → Bool
  | .name ident => isName ident
  | .qualified package ident => isName package && isName ident
  | .array (some length) _ => p length
  | .function params results => params.toList.all Field.isEntry && results.toList.all Field.isEntry
  | .struct fields => fields.toList.all Field.isSpelled
  | .interface members => members.toList.all fun field => field.isEntry && field.isMethodIfNamed
  | _ => true

end Lengths

theorem Field.isSpelled_of_isEntry {field : Field} (h : field.isEntry = true) :
    field.isSpelled = true :=
  (Bool.and_eq_true_iff.mp h).1

theorem FieldList.all_isSpelled_of_isEntry {fields : FieldList}
    (h : fields.toList.all Field.isEntry = true) : fields.toList.all Field.isSpelled = true :=
  List.all_eq_true.mpr fun field hmem =>
    Field.isSpelled_of_isEntry (List.all_eq_true.mp h field hmem)

theorem FieldList.AreEntries.all_isEntry {fields : FieldList} (h : fields.AreEntries) :
    fields.toList.all Field.isEntry = true := by
  refine List.all_eq_true.mpr fun field hmem => ?_
  rw [Field.isEntry, Field.isSpelled, h.names field hmem, h.tags field hmem]
  rfl

namespace TypeExpr

theorem hasLength_isNumber (type : TypeExpr) : type.hasLength isNumber = type.hasDecimalLength := by
  fun_cases hasDecimalLength type <;> simp_all [hasLength]

theorem everywhere_of_variadicElem {p : TypeExpr → Bool} (hp : ∀ elem, p (.variadic elem) = true)
    {type : TypeExpr} (h : type.variadicElem.everywhere p = true) : type.everywhere p = true := by
  cases type with
  | «variadic» elem => exact Bool.and_eq_true_iff.mpr ⟨hp elem, h⟩
  | _ => exact h

/-- **Types that have been parsed are spelled as such**, if their lengths are of the kind. -/
theorem IsParsed.everywhere_isSpelled {p : String → Bool} {type : TypeExpr} (h : type.IsParsed)
    (hlengths : type.everywhere (hasLength p) = true) :
    type.everywhere (isSpelled p) = true := by
  induction h with
  | name h => exact h
  | qualified hpackage hident => exact Bool.and_eq_true_iff.mpr ⟨hpackage, hident⟩
  | pointer _ ih | slice _ ih | paren _ ih | channel _ _ ih =>
    exact Bool.and_eq_true_iff.mpr ⟨rfl, ih (Bool.and_eq_true_iff.mp hlengths).2⟩
  | array _ _ ih =>
    obtain ⟨hlength, hinside⟩ := Bool.and_eq_true_iff.mp hlengths
    exact Bool.and_eq_true_iff.mpr ⟨hlength, ih hinside⟩
  | map _ _ ihkey ihvalue =>
    simp only [everywhere, Bool.and_eq_true] at hlengths ⊢
    exact ⟨rfl, ihkey hlengths.2.1, ihvalue hlengths.2.2⟩
  | @function params results hparams hresults _ _ ihparams ihresults =>
    simp only [everywhere, isSpelled, Bool.and_eq_true] at hlengths ⊢
    obtain ⟨-, hparamLengths, hresultLengths⟩ := hlengths
    refine ⟨⟨hparams.all_isEntry, hresults.all_isEntry⟩, ?_, ?_⟩ <;>
      refine FieldList.everywhere_iff.mpr fun field hmem =>
        everywhere_of_variadicElem (fun _ => rfl) ?_
    · exact ihparams field hmem
        (everywhere_variadicElem (FieldList.everywhere_iff.mp hparamLengths field hmem))
    · exact ihresults field hmem
        (everywhere_variadicElem (FieldList.everywhere_iff.mp hresultLengths field hmem))
  | @struct fields hfields _ ih =>
    have hinside := FieldList.everywhere_iff.mp (Bool.and_eq_true_iff.mp hlengths).2
    refine Bool.and_eq_true_iff.mpr ⟨List.all_eq_true.mpr fun field hmem => ?_,
      FieldList.everywhere_iff.mpr fun field hmem => ih field hmem (hinside field hmem)⟩
    exact Bool.and_eq_true_iff.mpr ⟨(hfields field hmem).names,
      Option.all_eq_true _ _ |>.mpr (hfields field hmem).tag⟩
  | @interface members hmembers _ ih =>
    have hinside := FieldList.everywhere_iff.mp (Bool.and_eq_true_iff.mp hlengths).2
    refine Bool.and_eq_true_iff.mpr ⟨List.all_eq_true.mpr fun field hmem => ?_,
      FieldList.everywhere_iff.mpr fun field hmem => ih field hmem (hinside field hmem)⟩
    obtain ⟨⟨name, params, results, hnames, hname, htype⟩ | ⟨hnames, -⟩, htag⟩ :=
      hmembers field hmem
    · simp [Field.isEntry, Field.isSpelled, Field.isMethodIfNamed, hnames, hname, htype, htag]
    · simp [Field.isEntry, Field.isSpelled, Field.isMethodIfNamed, hnames, htag]

theorem everywhere_isSpelled_of_variadicElem {p : String → Bool} {type : TypeExpr}
    (h : type.variadicElem.IsParsed) (hlengths : type.everywhere (hasLength p) = true) :
    type.everywhere (isSpelled p) = true :=
  everywhere_of_variadicElem (fun _ => rfl)
    (h.everywhere_isSpelled (everywhere_variadicElem hlengths))

end TypeExpr

/-! ## 4. The pieces are what is read -/

section Cuts

variable {stops : List Pattern} (hstops : IsStops stops)

theorem isCut_tag {tag : String} (h : isTag tag = true) :
    IsCut Pattern.textStops (fun _ => True) [.text tag] := by
  rcases cases_of_isTag h with ⟨inner, hchars, hinner⟩ | ⟨inner, hchars, hinner⟩
  · refine isCut_of_takes (.inl rfl) fun rest _ => ?_
    rw [hchars]
    exact (takes_stringLit hinner).alt.imp fun _ _ => trivial
  · refine isCut_of_takes (.inl rfl) fun rest _ => ?_
    have hstring : Refuses .token (.call .stringLit) ('\x60' :: (inner ++ rest)) :=
      Refuses.call (Refuses.seq (refuses_text_of_head rfl nofun))
    rw [hchars]
    exact hstring.alt_takes ((takes_rawStringLit hinner).alt.imp fun _ _ => trivial)

/-- Inside of brackets all plain text can stand. -/
theorem isCut_symbols_inside {text : String} (h : isSymbols text = true) :
    IsCut Pattern.textStops (fun _ => True) [.text text] :=
  isCut_symbols (.inl rfl) h nofun

theorem isCut_entryPieces {names : List String} {type : List Segment} {tag : Option String}
    (hnames : names.all isName = true) (htag : tag.all isTag = true)
    (htype : IsCut Pattern.textStops EndsWord type) :
    IsCut Pattern.textStops EndsWord (entryPieces names type tag) := by
  have htagged : IsCut Pattern.textStops EndsWord
      (type ++ tag.toList.flatMap fun tag => [.text " ", .text tag]) := by
    cases tag with
    | none => simpa using htype
    | some tag =>
      have hsep : IsCut Pattern.textStops (fun _ => True) ([.text " "] ++ [.text tag]) :=
        (isCut_symbols_inside rfl).append (isCut_tag htag) fun _ _ => trivial
      exact htype.append (hsep.mono fun _ _ => trivial) fun rest _ => endsWord_of_text rfl _ rest
  have hlist : IsCut Pattern.textStops EndsWord (namePieces names) := by
    refine IsCut.separated (isCut_symbols_inside rfl) rfl fun item hmem => ?_
    obtain ⟨name, hname, rfl⟩ := List.mem_map.mp hmem
    exact isCut_name (List.all_eq_true.mp hnames name hname)
  unfold entryPieces
  rw [List.append_assoc]
  cases hempty : names.isEmpty with
  | true => exact htagged
  | false =>
    have hsep : IsCut Pattern.textStops (fun _ => True) [.text " "] := isCut_symbols_inside rfl
    rw [if_neg Bool.false_ne_true, List.append_assoc]
    exact hlist.append (hsep.append htagged fun _ _ => trivial) fun rest _ =>
      endsWord_of_text rfl _ rest

theorem isCut_listPieces {entries : List (List Segment)}
    (h : ∀ entry ∈ entries, IsCut Pattern.textStops EndsWord entry) :
    IsCut stops (fun _ => True) (listPieces entries) :=
  (IsCut.separated (isCut_symbols_inside rfl) rfl h).parens

include hstops in
theorem isCut_blockPieces {items : List (List Segment)}
    (h : ∀ item ∈ items, IsCut Pattern.textStops EndsWord item) :
    IsCut stops (fun _ => True) (blockPieces items) := by
  cases items with
  | nil => exact (isCut_nil fun _ => True).enclosed rfl fun _ => trivial
  | cons item items =>
    have hitems : IsCut Pattern.textStops EndsWord (separated "; " (item :: items)) :=
      IsCut.separated (isCut_symbols_inside rfl) rfl h
    have hspaced : IsCut Pattern.textStops (fun _ => True)
        (separated "; " (item :: items) ++ [.text " "]) :=
      hitems.append (isCut_symbols_inside rfl) fun rest _ => endsWord_of_text rfl [] rest
    have hblock : IsCut stops (fun _ => True)
        (enclosed '\x7b' '\x7d' (.text " " :: (separated "; " (item :: items) ++ [.text " "]))) :=
      (hspaced.text_cons (.inl rfl) rfl rfl).enclosed rfl fun _ => trivial
    exact hblock.text_cons hstops rfl rfl

/-- What begins with a bracket or a blank sets off a word before it. -/
theorem isCut_keyword_cons {word text : String} (hword : word ∈ reservedWords)
    (htext : beginsNoWord text = true) {pieces : List Segment}
    (h : IsCut stops EndsWord (.text text :: pieces)) :
    IsCut stops EndsWord (.ident word :: .text text :: pieces) := by
  obtain ⟨c, cs, hchars, hstart⟩ := exists_start_of_mem_reservedWords hword
  have hall := isXidContinue_of_mem_reservedWords hword
  rw [hchars] at hall
  exact (isCut_word hchars hstart fun d hd => hall d (List.mem_cons_of_mem c hd)).word_cons htext h

theorem isCut_keyword_append {word : String} (hword : word ∈ reservedWords)
    {items : List (List Segment)} (h : IsCut stops (fun _ => True) (blockPieces items)) :
    IsCut stops EndsWord (.ident word :: blockPieces items) := by
  have hafter : IsCut stops EndsWord (blockPieces items) := h.mono fun _ _ => trivial
  cases items <;> exact isCut_keyword_cons hword rfl hafter

end Cuts

section Types

variable {p : String → Bool}

theorem areGroups_isNumber : AreGroups isNumber := fun length h => by
  obtain ⟨hne, hdigits⟩ := Bool.and_eq_true_iff.mp h
  exact isCut_number (by simpa using hne) hdigits

mutual

/-- **The pieces of a type are what is read of its text**, if its lengths are groups in their
    brackets. -/
theorem TypeExpr.isCut_pieces (hp : AreGroups p) {stops : List Pattern} (hstops : IsStops stops) :
    ∀ type : TypeExpr, type.everywhere (TypeExpr.isSpelled p) = true →
    IsCut stops EndsWord type.pieces
  | .name ident, h => isCut_name h
  | .qualified package ident, h => by
    obtain ⟨hpackage, hident⟩ := Bool.and_eq_true_iff.mp h
    exact (isCut_name hpackage).word_cons rfl ((isCut_name hident).text_cons hstops rfl rfl)
  | .pointer elem, h | .variadic elem, h =>
    (TypeExpr.isCut_pieces hp hstops elem (Bool.and_eq_true_iff.mp h).2).text_cons hstops rfl rfl
  | .array none elem, h => by
    have helem := TypeExpr.isCut_pieces hp hstops elem (Bool.and_eq_true_iff.mp h).2
    exact ((isCut_nil fun _ => True).enclosed rfl fun _ => trivial).append helem fun _ _ => trivial
  | .array (some length) elem, h => by
    obtain ⟨hlength, helem⟩ := Bool.and_eq_true_iff.mp h
    rw [TypeExpr.pieces, Option.toList_some, List.flatMap_singleton]
    exact ((hp length hlength).enclosed rfl fun after => ⟨after, rfl⟩).append
      (TypeExpr.isCut_pieces hp hstops elem helem) fun _ _ => trivial
  | .paren inner, h => by
    have hinner := TypeExpr.isCut_pieces hp (.inl rfl) inner (Bool.and_eq_true_iff.mp h).2
    exact hinner.parens.mono fun _ _ => trivial
  | .channel direction value, h => by
    have hvalue {stops} (hstops : IsStops stops) : IsCut stops EndsWord value.pieces :=
      TypeExpr.isCut_pieces hp hstops value (Bool.and_eq_true_iff.mp h).2
    have htyped : IsCut stops EndsWord
        (if needsParens direction value then enclosed '(' ')' value.pieces else value.pieces) := by
      cases needsParens direction value with
      | true => exact (hvalue (.inl rfl)).parens.mono fun _ _ => trivial
      | false => exact hvalue hstops
    have hspaced : IsCut stops EndsWord (.text " " :: _) := htyped.text_cons hstops rfl rfl
    cases direction with
    | both => exact isCut_keyword_cons (by decide) rfl hspaced
    | send => exact isCut_keyword_cons (by decide) rfl (hspaced.text_cons hstops rfl rfl)
    | receive => exact (isCut_keyword_cons (by decide) rfl hspaced).text_cons hstops rfl rfl
  | .map key value, h => by
    simp only [TypeExpr.everywhere, Bool.and_eq_true] at h
    have hkey : IsCut stops (fun _ => True) (enclosed '[' ']' key.pieces) :=
      (TypeExpr.isCut_pieces hp (.inl rfl) key h.2.1).enclosed rfl fun _ => rfl
    exact isCut_keyword_cons (by decide) rfl
      (hkey.append (TypeExpr.isCut_pieces hp hstops value h.2.2) fun _ _ => trivial)
  | .function params results, h => by
    simp only [TypeExpr.everywhere, TypeExpr.isSpelled, Bool.and_eq_true] at h
    have hparams : IsCut stops (fun _ => True) (listPieces params.entryPieces) :=
      isCut_listPieces (FieldList.isCut_entryPieces hp params
        (FieldList.all_isSpelled_of_isEntry h.1.1) h.2.1)
    have hresults := FieldList.isCut_resultPieces hp hstops results
      (FieldList.all_isSpelled_of_isEntry h.1.2) h.2.2
    exact isCut_keyword_cons (by decide) rfl (hparams.append hresults fun _ _ => trivial)
  | .struct fields, h => by
    simp only [TypeExpr.everywhere, TypeExpr.isSpelled, Bool.and_eq_true] at h
    have hfields := isCut_blockPieces hstops (FieldList.isCut_entryPieces hp fields h.1 h.2)
    exact isCut_keyword_append (by decide) hfields
  | .interface members, h => by
    simp only [TypeExpr.everywhere, TypeExpr.isSpelled, Bool.and_eq_true] at h
    have hmembers := isCut_blockPieces hstops (FieldList.isCut_memberPieces hp members h.1 h.2)
    exact isCut_keyword_append (by decide) hmembers

theorem FieldList.isCut_entryPieces (hp : AreGroups p) : ∀ fields : FieldList,
    fields.toList.all Field.isSpelled = true →
    fields.everywhere (TypeExpr.isSpelled p) = true →
    ∀ entry ∈ fields.entryPieces, IsCut Pattern.textStops EndsWord entry
  | .nil, _, _ => by simp [FieldList.entryPieces]
  | .cons names type tag rest, hspelled, htypes => by
    simp only [FieldList.toList, List.all_cons, Bool.and_eq_true] at hspelled
    simp only [FieldList.everywhere, Bool.and_eq_true] at htypes
    obtain ⟨hnames, htag⟩ := Bool.and_eq_true_iff.mp hspelled.1
    rw [FieldList.entryPieces, List.forall_mem_cons]
    have htype := TypeExpr.isCut_pieces hp (.inl rfl) type htypes.1
    exact ⟨GoStencil.isCut_entryPieces hnames htag htype,
      FieldList.isCut_entryPieces hp rest hspelled.2 htypes.2⟩

theorem FieldList.isCut_resultPieces (hp : AreGroups p) {stops : List Pattern}
    (hstops : IsStops stops) :
    ∀ results : FieldList, results.toList.all Field.isSpelled = true →
    results.everywhere (TypeExpr.isSpelled p) = true → IsCut stops EndsWord results.resultPieces
  | .nil, _, _ => isCut_nil _
  | .cons names type tag rest, hspelled, htypes => by
    simp only [FieldList.toList, List.all_cons, Bool.and_eq_true] at hspelled
    simp only [FieldList.everywhere, Bool.and_eq_true] at htypes
    obtain ⟨hnames, htag⟩ := Bool.and_eq_true_iff.mp hspelled.1
    have hrest := FieldList.isCut_entryPieces hp rest hspelled.2 htypes.2
    have hlist : IsCut stops (fun _ => True) _ := isCut_listPieces (List.forall_mem_cons.mpr
      ⟨GoStencil.isCut_entryPieces hnames htag (TypeExpr.isCut_pieces hp (.inl rfl) type htypes.1),
        hrest⟩)
    match names, rest with
    | [], .nil => exact (TypeExpr.isCut_pieces hp hstops type htypes.1).text_cons hstops rfl rfl
    | [], .cons .. | _ :: _, _ => exact (hlist.text_cons hstops rfl rfl).mono fun _ _ => trivial

theorem FieldList.isCut_memberPieces (hp : AreGroups p) : ∀ members : FieldList,
    (members.toList.all fun field => field.isEntry && field.isMethodIfNamed) = true →
    members.everywhere (TypeExpr.isSpelled p) = true →
    ∀ item ∈ members.memberPieces, IsCut Pattern.textStops EndsWord item
  | .nil, _, _ => by simp [FieldList.memberPieces]
  | .cons names type tag rest, hspelled, htypes => by
    simp only [FieldList.toList, List.all_cons, Bool.and_eq_true] at hspelled
    simp only [FieldList.everywhere, Bool.and_eq_true] at htypes
    obtain ⟨⟨hfield, hmethod⟩, hothers⟩ := hspelled
    have ihrest := FieldList.isCut_memberPieces hp rest hothers htypes.2
    cases names with
    | nil =>
      have hitems : (FieldList.cons [] type tag rest).memberPieces =
          type.pieces :: rest.memberPieces := by simp [FieldList.memberPieces]
      rw [hitems, List.forall_mem_cons]
      exact ⟨TypeExpr.isCut_pieces hp (.inl rfl) type htypes.1, ihrest⟩
    | cons name names =>
      cases type with
      | function params results =>
        simp only [TypeExpr.everywhere, TypeExpr.isSpelled, Bool.and_eq_true] at htypes
        obtain ⟨⟨hlists, hinside⟩, -⟩ := htypes
        have hspelled := Field.isSpelled_of_isEntry hfield
        have hname := Bool.and_eq_true_iff.mp (Bool.and_eq_true_iff.mp hspelled).1
        rw [FieldList.memberPieces, List.forall_mem_cons]
        refine ⟨(isCut_name hname.1).word_cons rfl ?_, ihrest⟩
        have hparams : IsCut Pattern.textStops (fun _ => True) (listPieces params.entryPieces) :=
          isCut_listPieces (FieldList.isCut_entryPieces hp params
            (FieldList.all_isSpelled_of_isEntry hlists.1) hinside.1)
        have hresults := FieldList.isCut_resultPieces hp (.inl rfl) results
          (FieldList.all_isSpelled_of_isEntry hlists.2) hinside.2
        exact hparams.append hresults fun _ _ => trivial
      | _ => cases names <;> cases hmethod

end

end Types

end GoStencil
