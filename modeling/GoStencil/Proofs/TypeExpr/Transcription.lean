import GoStencil.Proofs.Instantiation
import GoStencil.Proofs.Stream.Pieces
import GoStencil.Proofs.TypeExpr.Pieces

/-!
# Types instantiated as text

A type can be instantiated as a tree and then written, or written between braces, read as the body
of a function, and instantiated there, where of what precedes a name only the text is known. Both
ways lead to the same text.

* `awaitsType`: before a place where a type stands by itself there is neither a selector nor the
  word `chan`. `awaitsType_stack`: after the text that the printer writes before types that is so.
* `Transcribes`: some pieces are instantiated as others are written, wherever a type can stand.
* `TypeExpr.isTranscribed`: the pieces of a type are instantiated as its instance is written.
* `TypeExpr.avoidsColons_pieces`: no piece of a type is taken for the end of a composite key.
* `TypeExpr.IsParsed.source_instantiate`: the two ways, for every type that has been parsed.
-/

namespace GoStencil

open Body Grammar

variable {subst : Substitution} {before pieces : List Segment}

/-! ## 1. Places of types -/

/-- Whether what precedes a place, last segment first, neither selects a name there nor makes a type
    there the value of a channel. -/
def awaitsType (before : List Segment) : Bool :=
  !followsSelector before && !followsChanKeyword before

/-- Whether a text before a place is no selector and shows that no channel is opened. -/
def opensType (text : String) : Bool :=
  (!Text.endsWith text "." || Text.endsWith text "...") &&
    text.toList.any fun c => !Text.isBlank c && c != '<' && c != '-'

theorem stack_stack_text (before : List Segment) (first second : String) :
    stack (stack before (.text first)) (.text second) = stack before (.text (first ++ second)) := by
  cases before with
  | nil => rfl
  | cons segment rest => cases segment <;> simp [stack, String.append_assoc]

theorem exists_stack_text (before : List Segment) (text : String) :
    ∃ first rest, stack before (.text text) = .text (first ++ text) :: rest := by
  cases before with
  | nil => exact ⟨"", [], by simp [stack]⟩
  | cons segment rest =>
    cases segment with
    | ident ident => exact ⟨"", .ident ident :: rest, by simp [stack]⟩
    | text first => exact ⟨first, rest, rfl⟩

theorem endsWith_append {first second ending : String} (h : Text.endsWith second ending = true) :
    Text.endsWith (first ++ second) ending = true := by
  simp only [Text.endsWith, List.isSuffixOf_iff_suffix, String.toList_append] at h ⊢
  exact h.trans (List.suffix_append _ _)

theorem endsWith_dot_append {first second : String} (hne : second.toList ≠ []) :
    Text.endsWith (first ++ second) "." = Text.endsWith second "." := by
  obtain ⟨init, c, hsecond⟩ := List.eq_nil_or_concat second.toList |>.resolve_left hne
  have hdot : ".".toList = ['.'] := rfl
  simp [Text.endsWith, hsecond, hdot, List.isSuffixOf, List.isPrefixOf]

theorem mem_dropBlankEnd {c : Char} (hblank : Text.isBlank c = false) :
    ∀ {cs : List Char}, c ∈ cs → c ∈ Text.dropBlankEnd cs
  | [], h => nomatch h
  | d :: cs, h => by
    unfold Text.dropBlankEnd
    split
    · rename_i hkept
      rcases List.mem_cons.mp h with rfl | h
      · simp [hblank]
      · have hmem := mem_dropBlankEnd hblank h
        rw [hkept] at hmem
        cases hmem
    · rcases List.mem_cons.mp h with rfl | h
      · exact List.mem_cons_self
      · exact List.mem_cons_of_mem d (mem_dropBlankEnd hblank h)

/-- A character that is not white space is kept by trimming. -/
theorem mem_trim {c : Char} {text : String} (hblank : Text.isBlank c = false)
    (h : c ∈ text.toList) : c ∈ (Text.trim text).toList := by
  rw [Text.trim, String.toList_ofList]
  refine mem_dropBlankEnd hblank ?_
  rw [← List.takeWhile_append_dropWhile (p := Text.isBlank) (l := text.toList)] at h
  rcases List.mem_append.mp h with h | h
  · rw [List.all_eq_true.mp List.all_takeWhile c h] at hblank
    cases hblank
  · exact h

/-- **After the text that is written before a type there is a place for one.** -/
theorem awaitsType_stack {text : String} (h : opensType text = true) (before : List Segment) :
    awaitsType (stack before (.text text)) = true := by
  obtain ⟨first, rest, hstack⟩ := exists_stack_text before text
  obtain ⟨hends, hmark⟩ := Bool.and_eq_true_iff.mp h
  obtain ⟨c, hc, hmark⟩ := List.any_eq_true.mp hmark
  simp only [Bool.and_eq_true, Bool.not_eq_true', bne_iff_ne, ne_eq] at hmark
  obtain ⟨⟨hblank, hless⟩, hminus⟩ := hmark
  rw [hstack, awaitsType, Bool.and_eq_true, Bool.not_eq_true', Bool.not_eq_true']
  constructor
  · rcases Bool.or_eq_true_iff.mp hends with hdot | hdots
    · simp only [followsSelector, endsWith_dot_append (List.ne_nil_of_mem hc)]
      simp_all
    · simp [followsSelector, endsWith_append hdots]
  · have hkept : c ∈ (Text.trim (first ++ text)).toList := mem_trim hblank (by simp [hc])
    have hnone : Text.trim (first ++ text) ≠ "" := fun e => by simp [e] at hkept
    have harrow : Text.trim (first ++ text) ≠ "<-" := fun e => by simp [e, hless, hminus] at hkept
    cases rest with
    | nil => rfl
    | cons segment rest => cases segment <;> simp [followsChanKeyword, hnone, harrow]

/-! ## 2. Words -/

theorem transcribe_name (h : followsSelector before = false) (ident : String) :
    transcribe subst before [.ident ident] =
      (if followsChanKeyword before
        then channelValue (.name ident) ((TypeExpr.name ident).instantiate subst)
        else (TypeExpr.name ident).instantiate subst).render := by
  cases hbound : subst.getName? ident with
  | none =>
    simp [transcribe, transcribeSegment, hbound, TypeExpr.instantiate, channelValue,
      TypeExpr.isChannel, TypeExpr.render]
  | some bound =>
    simp [transcribe, transcribeSegment, hbound, TypeExpr.instantiate, h,
      source_boundSegment before ident bound]

theorem transcribe_ident_cons {ident : String} (h : subst.bindsName ident = false) :
    transcribe subst before (.ident ident :: pieces) =
      ident ++ transcribe subst (.ident ident :: before) pieces := by
  have hnone : subst.getName? ident = none := Substitution.bindsName_eq_false_iff.mp h
  rw [transcribe, stack_ident, transcribeSegment, hnone]

/-- Pieces none of which is bound stay as they are. -/
theorem transcribe_of_unbound :
    ∀ {pieces before : List Segment},
      (∀ ident, .ident ident ∈ pieces → subst.bindsName ident = false) →
      transcribe subst before pieces = sourceOf pieces
  | [], _, _ => rfl
  | .text text :: pieces, before, h => by
    rw [transcribe, transcribe_of_unbound fun ident hmem => h ident (List.mem_cons_of_mem _ hmem),
      sourceOf_cons, transcribeSegment, Segment.source]
  | .ident ident :: pieces, before, h => by
    rw [transcribe_ident_cons (h ident List.mem_cons_self),
      transcribe_of_unbound fun ident hmem => h ident (List.mem_cons_of_mem _ hmem),
      sourceOf_cons, Segment.source]

/-! ## 3. Lists -/

/-- Whether some pieces are instantiated as others are written, wherever a type can stand. -/
def Transcribes (subst : Substitution) (pieces others : List Segment) : Prop :=
  ∀ before, awaitsType before = true → transcribe subst before pieces = sourceOf others

theorem transcribe_enclosed (opening closing : Char) (inside : List Segment) :
    transcribe subst before (enclosed opening closing inside) =
      String.ofList [opening] ++
        (transcribe subst (stack before (.text (String.ofList [opening]))) inside ++
          String.ofList [closing]) := by
  simp [enclosed, transcribe, transcribe_append, transcribeSegment]

theorem foldl_stack_enclosed (opening closing : Char) (inside : List Segment) :
    (enclosed opening closing inside).foldl stack before =
      stack (inside.foldl stack (stack before (.text (String.ofList [opening]))))
        (.text (String.ofList [closing])) := by
  simp [enclosed]

/-- A group before the pieces makes place for them, if its closing bracket does. -/
theorem Transcribes.after_enclosed {others inside result : List Segment}
    (h : Transcribes subst pieces others) {opening closing : Char}
    (hcloses : opensType (String.ofList [closing]) = true)
    (hinside : transcribe subst (stack before (.text (String.ofList [opening]))) inside =
      sourceOf result) :
    transcribe subst before (enclosed opening closing inside ++ pieces) =
      sourceOf (enclosed opening closing result ++ others) := by
  rw [transcribe_append, transcribe_enclosed, hinside, foldl_stack_enclosed,
    h _ (awaitsType_stack hcloses _), sourceOf_append, sourceOf_enclosed]

/-- A text before the pieces makes place for them. -/
theorem Transcribes.after {others : List Segment} (h : Transcribes subst pieces others)
    {text : String} (htext : opensType text = true) (before : List Segment) :
    transcribe subst before (.text text :: pieces) = sourceOf (.text text :: others) := by
  rw [transcribe, h _ (awaitsType_stack htext before), sourceOf_cons]
  rfl

/-- Items are instantiated one by one, if the text between them makes place for each. -/
theorem Transcribes.separated {separator : String} (hseparator : opensType separator = true)
    {items others : List (List Segment)} (h : List.Forall₂ (Transcribes subst) items others) :
    Transcribes subst (separated separator items) (separated separator others) := by
  induction h with
  | nil => exact fun _ _ => rfl
  | @cons item other items others hitem hitems ih =>
    cases hitems with
    | nil => exact hitem
    | cons hnext hrest =>
      intro before hbefore
      rw [Body.separated, Body.separated, transcribe_append, sourceOf_append, hitem before hbefore,
        ih.after hseparator]

/-- After names, of which none is the channel keyword, a type can stand. -/
theorem awaitsType_after_names {names : List String} (hne : names ≠ [])
    (hnames : names.all isName = true) (before : List Segment) :
    awaitsType (stack ((namePieces names).foldl stack before) (.text " ")) = true := by
  induction names generalizing before with
  | nil => exact absurd rfl hne
  | cons name names ih =>
    obtain ⟨hname, hnames⟩ := Bool.and_eq_true_iff.mp hnames
    cases names with
    | nil =>
      have hchan : name ≠ "chan" := by
        rintro rfl
        revert hname
        decide
      have hends : Text.endsWith " " "." = false := by decide
      simp [namePieces, separated, stack, awaitsType, followsSelector, followsChanKeyword, hchan,
        hends]
    | cons next names =>
      rw [namePieces, List.map_cons, List.map_cons, separated, List.foldl_append]
      exact ih (List.cons_ne_nil _ _) hnames _

theorem transcribes_namePieces {names : List String}
    (hfree : ∀ name ∈ names, subst.bindsName name = false) :
    Transcribes subst (namePieces names) (namePieces names) := by
  refine Transcribes.separated (by decide) ?_
  refine List.forall₂_same.mpr fun item hmem before hbefore => ?_
  obtain ⟨name, hname, rfl⟩ := List.mem_map.mp hmem
  exact transcribe_of_unbound fun ident hident => by simp_all

/-- Entries are instantiated as their types are. -/
theorem Transcribes.entry {names : List String} {type other : List Segment}
    (hnames : names.all isName = true) (hfree : ∀ name ∈ names, subst.bindsName name = false)
    (h : Transcribes subst type other) (tag : Option String) :
    Transcribes subst (entryPieces names type tag) (entryPieces names other tag) := by
  intro before hbefore
  have htag : ∀ before,
      transcribe subst before (tag.toList.flatMap fun tag => [.text " ", .text tag]) =
        sourceOf (tag.toList.flatMap fun tag => [.text " ", .text tag]) :=
    fun before => transcribe_of_unbound fun ident hmem => by simp at hmem
  unfold entryPieces
  rw [transcribe_append, transcribe_append, htag, sourceOf_append, sourceOf_append]
  cases names with
  | nil => simp [transcribe, h before hbefore]
  | cons name names =>
    have hplace := awaitsType_after_names (List.cons_ne_nil name names) hnames before
    simp [transcribe_append, transcribe, transcribeSegment, Segment.source, h _ hplace,
      transcribes_namePieces hfree before hbefore]

theorem transcribe_listPieces {entries others : List (List Segment)}
    (h : List.Forall₂ (Transcribes subst) entries others) (before : List Segment) :
    transcribe subst before (listPieces entries) = sourceOf (listPieces others) := by
  rw [listPieces, transcribe_enclosed,
    Transcribes.separated (by decide) h _ (awaitsType_stack (by decide) before), listPieces,
    sourceOf_enclosed]

theorem transcribe_blockPieces {items others : List (List Segment)}
    (h : List.Forall₂ (Transcribes subst) items others) (before : List Segment) :
    transcribe subst before (blockPieces items) = sourceOf (blockPieces others) := by
  cases h with
  | nil => exact transcribe_of_unbound fun ident hmem => by simp [blockPieces, enclosed] at hmem
  | @cons item other items others hitem hitems =>
    have hplace : awaitsType (stack (stack (stack before (.text " "))
        (.text (String.ofList ['\x7b']))) (.text " ")) = true := by
      rw [stack_stack_text]
      exact awaitsType_stack (by decide) _
    have hlist : Transcribes subst (separated "; " (item :: items))
        (separated "; " (other :: others)) := Transcribes.separated (by decide) (.cons hitem hitems)
    simp [blockPieces, transcribe, transcribe_append, transcribe_enclosed, transcribeSegment,
      Segment.source, sourceOf_enclosed, hlist _ hplace]

/-! ## 4. Types -/

mutual

/-- The names of fields, parameters and methods in a type, and those of the packages it refers
    to. -/
def TypeExpr.labels : TypeExpr → List String
  | .name _ => []
  | .qualified package _ => [package]
  | .pointer elem => elem.labels
  | .array _ elem => elem.labels
  | .variadic elem => elem.labels
  | .paren inner => inner.labels
  | .channel _ value => value.labels
  | .map key value => key.labels ++ value.labels
  | .function params results => params.labels ++ results.labels
  | .struct fields => fields.labels
  | .interface members => members.labels

/-- The names that the entries of a list declare, and the labels of their types. -/
def FieldList.labels : FieldList → List String
  | .nil => []
  | .cons names type _ rest => names ++ (type.labels ++ rest.labels)

end

/-- Whether a substitution binds nothing but names, and no words of the language. -/
def Substitution.BindsOnlyNames (subst : Substitution) : Prop :=
  ∀ key ∈ subst.keys, ∃ ident, ident ∉ reservedWords ∧ key = .name ident

namespace Substitution.BindsOnlyNames

theorem bindsName_eq_false (h : subst.BindsOnlyNames) {word : String}
    (hword : word ∈ reservedWords) : subst.bindsName word = false := by
  refine bindsName_eq_false_iff.mpr (get?_eq_none_iff.mpr fun hmem => ?_)
  obtain ⟨ident, hident, hkey⟩ := h _ hmem
  cases hkey
  exact hident hword

theorem universal?_eq_none (h : subst.BindsOnlyNames) : subst.universal? = none := by
  refine get?_eq_none_iff.mpr fun hmem => ?_
  obtain ⟨ident, -, hkey⟩ := h _ hmem
  cases hkey

end Substitution.BindsOnlyNames

/-- What is no name keeps its form, and the parentheses that the printer adds. -/
theorem channelValue_instantiate (direction : Direction) {value : TypeExpr}
    (hname : value.isOwnName = false) (huniversal : subst.universal? = none) :
    channelValue value (value.instantiate subst) = value.instantiate subst ∧
      needsParens direction (value.instantiate subst) = needsParens direction value := by
  cases value with
  | name => cases hname
  | interface members =>
    cases members <;>
      simp [TypeExpr.instantiate, channelValue, TypeExpr.isChannel, needsParens, huniversal,
        TypeExpr.emptyInterface]
  | channel inner =>
    cases direction <;> cases inner <;>
      simp [TypeExpr.instantiate, channelValue, TypeExpr.isChannel, needsParens]
  | _ => simp [TypeExpr.instantiate, channelValue, TypeExpr.isChannel, needsParens]

/-- Whether the pieces of a type are instantiated as its instance is written: a name where a type
    can stand, any other type after all segments. -/
def TypeExpr.IsTranscribed (subst : Substitution) (type : TypeExpr) : Prop :=
  ∀ before, (type.isOwnName = true → awaitsType before = true) →
    transcribe subst before type.pieces = sourceOf (type.instantiate subst).pieces

namespace TypeExpr.IsTranscribed

variable {value : TypeExpr}

theorem transcribes (h : value.IsTranscribed subst) :
    Transcribes subst value.pieces (value.instantiate subst).pieces :=
  fun before hplace => h before fun _ => hplace

theorem name (ident : String) : (TypeExpr.name ident).IsTranscribed subst := by
  intro before hplace
  have hawaits := hplace rfl
  rw [awaitsType, Bool.and_eq_true, Bool.not_eq_true', Bool.not_eq_true'] at hawaits
  rw [TypeExpr.pieces, transcribe_name hawaits.1, hawaits.2, if_neg Bool.false_ne_true,
    TypeExpr.sourceOf_pieces]

/-- A name after a dot is kept. -/
theorem qualified {package : String} (h : subst.bindsName package = false) (ident : String) :
    (TypeExpr.qualified package ident).IsTranscribed subst := by
  intro before _
  have hdot : Text.endsWith "." "." = true := by decide
  have hdots : Text.endsWith "." "..." = false := by decide
  rw [TypeExpr.pieces, transcribe_ident_cons h]
  cases hbound : subst.getName? ident <;>
    simp [transcribe, transcribeSegment, stack, followsSelector, hdot, hdots, hbound,
      TypeExpr.instantiate, TypeExpr.pieces, Segment.source]

theorem place_after_chan {between : String} (hselector : Text.endsWith between "." = false)
    (hbetween : (Text.trim between == "" || Text.trim between == "<-") = true)
    (before : List Segment) :
    followsSelector (.text between :: .ident "chan" :: before) = false ∧
      followsChanKeyword (.text between :: .ident "chan" :: before) = true := by
  simp [followsSelector, followsChanKeyword, hselector, hbetween]

/-- The words that open a channel type are followed by the place of its value. -/
theorem place_channelValue (direction : Direction) (before : List Segment) :
    followsSelector (stack (direction.pieces.foldl stack before) (.text " ")) = false ∧
      followsChanKeyword (stack (direction.pieces.foldl stack before) (.text " ")) = true := by
  cases direction <;> simp only [Direction.pieces, List.foldl_cons, List.foldl_nil, stack_ident]
  · exact place_after_chan (by decide) (by decide) _
  · exact place_after_chan (by decide) (by decide) _
  · exact place_after_chan (by decide) (by decide) _

theorem channel (h : value.IsTranscribed subst) (hchan : subst.bindsName "chan" = false)
    (huniversal : subst.universal? = none) (direction : Direction) :
    (TypeExpr.channel direction value).IsTranscribed subst := by
  intro before _
  obtain ⟨hselector, hfollows⟩ := place_channelValue direction before
  have hopens : transcribe subst before direction.pieces = sourceOf direction.pieces := by
    refine transcribe_of_unbound fun ident hmem => ?_
    cases direction <;> simp [Direction.pieces] at hmem <;> rwa [hmem]
  rw [TypeExpr.pieces, transcribe_append, hopens, transcribe, transcribeSegment,
    TypeExpr.instantiate, TypeExpr.pieces, sourceOf_append, sourceOf_cons, Segment.source]
  cases hname : value.isOwnName with
  | true =>
    obtain ⟨ident, rfl⟩ : ∃ ident, value = .name ident := by
      cases value <;> first | exact ⟨_, rfl⟩ | cases hname
    have hparens : ∀ after, needsParens direction (channelValue (.name ident) after) = false := by
      intro after
      cases direction <;> cases after <;> rfl
    have hbefore : needsParens direction (.name ident) = false := by cases direction <;> rfl
    rw [hparens, hbefore, if_neg Bool.false_ne_true, if_neg Bool.false_ne_true, TypeExpr.pieces,
      transcribe_name hselector, hfollows, if_pos rfl, TypeExpr.sourceOf_pieces]
  | false =>
    obtain ⟨hvalue, hparens⟩ := channelValue_instantiate direction hname huniversal
    rw [hvalue, hparens]
    have hinside := fun before => h before fun hown => absurd hown (by simp [hname])
    cases needsParens direction value with
    | true => simp [transcribe_enclosed, sourceOf_enclosed, hinside]
    | false => simp [hinside]

end TypeExpr.IsTranscribed

/-- A group of parameters, and the results after it. -/
theorem transcribe_signature {entries others : List (List Segment)} {results : List Segment}
    (hentries : List.Forall₂ (Transcribes subst) entries others)
    (hresults : ∀ before, transcribe subst (stack before (.text ")")) pieces = sourceOf results)
    (before : List Segment) :
    transcribe subst before (listPieces entries ++ pieces) =
      sourceOf (listPieces others ++ results) := by
  rw [transcribe_append, transcribe_listPieces hentries, sourceOf_append]
  refine congrArg _ ?_
  rw [listPieces, foldl_stack_enclosed]
  exact hresults _

/-- A length that is a number is one piece, without a name. -/
theorem pieces_length {length : Option String} {elem : TypeExpr}
    (h : (TypeExpr.array length elem).isSpelled isNumber = true) :
    length.toList.flatMap lengthPieces = length.toList.map .text := by
  cases length with
  | none => rfl
  | some length =>
    obtain ⟨hne, hdigits⟩ := Bool.and_eq_true_iff.mp h
    simp [lengthPieces_number (by simpa using hne) hdigits]

mutual

/-- **The pieces of a type are instantiated as its instance is written.** -/
theorem TypeExpr.isTranscribed (hkeys : subst.BindsOnlyNames) : ∀ type : TypeExpr,
    type.everywhere (TypeExpr.isSpelled isNumber) = true →
    (∀ label ∈ type.labels, subst.bindsName label = false) → type.IsTranscribed subst
  | .name ident, _, _ => .name ident
  | .qualified package ident, _, hlabels =>
    .qualified (hlabels package (by simp [TypeExpr.labels])) ident
  | .pointer elem, hspelled, hlabels | .variadic elem, hspelled, hlabels => by
    have ih := TypeExpr.isTranscribed hkeys elem (Bool.and_eq_true_iff.mp hspelled).2 hlabels
    exact fun before _ => ih.transcribes.after (by decide) before
  | .array length elem, hspelled, hlabels => by
    obtain ⟨hlength, helem⟩ := Bool.and_eq_true_iff.mp hspelled
    have ih := TypeExpr.isTranscribed hkeys elem helem hlabels
    intro before _
    refine ih.transcribes.after_enclosed (by decide) (transcribe_of_unbound fun ident hmem => ?_)
    rw [pieces_length hlength] at hmem
    simp at hmem
  | .paren inner, hspelled, hlabels => by
    have ih := TypeExpr.isTranscribed hkeys inner (Bool.and_eq_true_iff.mp hspelled).2 hlabels
    intro before _
    have hplace : awaitsType (stack before (.text "(")) = true :=
      awaitsType_stack (by decide) before
    rw [TypeExpr.pieces, transcribe_enclosed, TypeExpr.instantiate, TypeExpr.pieces,
      sourceOf_enclosed]
    exact congrArg (fun text => "(" ++ (text ++ ")")) (ih.transcribes _ hplace)
  | .channel direction value, hspelled, hlabels =>
    (TypeExpr.isTranscribed hkeys value (Bool.and_eq_true_iff.mp hspelled).2 hlabels).channel
      (hkeys.bindsName_eq_false (by decide)) hkeys.universal?_eq_none direction
  | .map key value, hspelled, hlabels => by
    simp only [TypeExpr.everywhere, Bool.and_eq_true] at hspelled
    rw [TypeExpr.labels, List.forall_mem_append] at hlabels
    have ihkey := TypeExpr.isTranscribed hkeys key hspelled.2.1 hlabels.1
    have ihvalue := TypeExpr.isTranscribed hkeys value hspelled.2.2 hlabels.2
    intro before _
    rw [TypeExpr.pieces, transcribe_ident_cons (hkeys.bindsName_eq_false (by decide)),
      TypeExpr.instantiate, TypeExpr.pieces, sourceOf_cons, Segment.source]
    refine congrArg _ (ihvalue.transcribes.after_enclosed (by decide) ?_)
    exact ihkey.transcribes _ (awaitsType_stack (by decide) _)
  | .function params results, hspelled, hlabels => by
    simp only [TypeExpr.everywhere, TypeExpr.isSpelled, Bool.and_eq_true] at hspelled
    rw [TypeExpr.labels, List.forall_mem_append] at hlabels
    obtain ⟨⟨hparamWords, hresultWords⟩, hparamTypes, hresultTypes⟩ := hspelled
    have hparams := FieldList.transcribes_entryPieces hkeys params
      (FieldList.all_isSpelled_of_isEntry hparamWords) hparamTypes hlabels.1
    have hresults := FieldList.transcribe_resultPieces hkeys results
      (FieldList.all_isSpelled_of_isEntry hresultWords) hresultTypes hlabels.2
    intro before _
    rw [TypeExpr.pieces, transcribe_ident_cons (hkeys.bindsName_eq_false (by decide)),
      TypeExpr.instantiate, TypeExpr.pieces, sourceOf_cons, Segment.source]
    exact congrArg _ (transcribe_signature hparams hresults _)
  | .struct fields, hspelled, hlabels => by
    simp only [TypeExpr.everywhere, TypeExpr.isSpelled, Bool.and_eq_true] at hspelled
    have hfields := FieldList.transcribes_entryPieces hkeys fields hspelled.1 hspelled.2 hlabels
    intro before _
    rw [TypeExpr.pieces, transcribe_ident_cons (hkeys.bindsName_eq_false (by decide)),
      TypeExpr.instantiate, TypeExpr.pieces, sourceOf_cons, Segment.source]
    exact congrArg _ (transcribe_blockPieces hfields _)
  | .interface members, hspelled, hlabels => by
    simp only [TypeExpr.everywhere, TypeExpr.isSpelled, Bool.and_eq_true] at hspelled
    have hmembers := FieldList.transcribes_memberPieces hkeys members hspelled.1 hspelled.2 hlabels
    have hinstance : (TypeExpr.interface members).instantiate subst =
        .interface (members.instantiate subst) := by
      cases members <;>
        simp [TypeExpr.instantiate, FieldList.instantiate, hkeys.universal?_eq_none,
          TypeExpr.emptyInterface]
    intro before _
    rw [TypeExpr.pieces, transcribe_ident_cons (hkeys.bindsName_eq_false (by decide)),
      hinstance, TypeExpr.pieces, sourceOf_cons, Segment.source]
    exact congrArg _ (transcribe_blockPieces hmembers _)

theorem FieldList.transcribes_entryPieces (hkeys : subst.BindsOnlyNames) : ∀ fields : FieldList,
    fields.toList.all Field.isSpelled = true →
    fields.everywhere (TypeExpr.isSpelled isNumber) = true →
    (∀ label ∈ fields.labels, subst.bindsName label = false) →
    List.Forall₂ (Transcribes subst) fields.entryPieces (fields.instantiate subst).entryPieces
  | .nil, _, _, _ => .nil
  | .cons names type tag rest, hspelled, htypes, hlabels => by
    simp only [FieldList.toList, List.all_cons, Bool.and_eq_true] at hspelled
    simp only [FieldList.everywhere, Bool.and_eq_true] at htypes
    simp only [FieldList.labels, List.forall_mem_append] at hlabels
    obtain ⟨hnames, -⟩ := Bool.and_eq_true_iff.mp hspelled.1
    have ih := TypeExpr.isTranscribed hkeys type htypes.1 hlabels.2.1
    exact .cons (ih.transcribes.entry hnames hlabels.1 tag)
      (FieldList.transcribes_entryPieces hkeys rest hspelled.2 htypes.2 hlabels.2.2)

theorem FieldList.transcribe_resultPieces (hkeys : subst.BindsOnlyNames) : ∀ results : FieldList,
    results.toList.all Field.isSpelled = true →
    results.everywhere (TypeExpr.isSpelled isNumber) = true →
    (∀ label ∈ results.labels, subst.bindsName label = false) → ∀ before,
    transcribe subst (stack before (.text ")")) results.resultPieces =
      sourceOf (results.instantiate subst).resultPieces
  | .nil, _, _, _, _ => rfl
  | .cons names type tag rest, hspelled, htypes, hlabels, before => by
    simp only [FieldList.toList, List.all_cons, Bool.and_eq_true] at hspelled
    simp only [FieldList.everywhere, Bool.and_eq_true] at htypes
    simp only [FieldList.labels, List.forall_mem_append] at hlabels
    obtain ⟨hnames, -⟩ := Bool.and_eq_true_iff.mp hspelled.1
    have ih := TypeExpr.isTranscribed hkeys type htypes.1 hlabels.2.1
    have hlist := transcribe_listPieces (List.Forall₂.cons
      (ih.transcribes.entry hnames hlabels.1 tag)
      (FieldList.transcribes_entryPieces hkeys rest hspelled.2 htypes.2 hlabels.2.2))
    match names, rest with
    | [], .nil =>
      have hplace : awaitsType (stack (stack before (.text ")")) (.text " ")) = true := by
        rw [stack_stack_text]
        exact awaitsType_stack (by decide) before
      simp [FieldList.resultPieces, FieldList.instantiate, transcribe, transcribeSegment,
        Segment.source, ih.transcribes _ hplace]
    | [], .cons .. | name :: names, _ =>
      simp [FieldList.resultPieces, FieldList.instantiate, transcribe, transcribeSegment,
        Segment.source, hlist]

theorem FieldList.transcribes_memberPieces (hkeys : subst.BindsOnlyNames) : ∀ members : FieldList,
    (members.toList.all fun field => field.isEntry && field.isMethodIfNamed) = true →
    members.everywhere (TypeExpr.isSpelled isNumber) = true →
    (∀ label ∈ members.labels, subst.bindsName label = false) →
    List.Forall₂ (Transcribes subst) members.memberPieces (members.instantiate subst).memberPieces
  | .nil, _, _, _ => .nil
  | .cons names type tag rest, hspelled, htypes, hlabels => by
    simp only [FieldList.toList, List.all_cons, Bool.and_eq_true] at hspelled
    simp only [FieldList.everywhere, Bool.and_eq_true] at htypes
    simp only [FieldList.labels, List.forall_mem_append] at hlabels
    obtain ⟨⟨-, hmethod⟩, hothers⟩ := hspelled
    have ihrest := FieldList.transcribes_memberPieces hkeys rest hothers htypes.2 hlabels.2.2
    cases names with
    | nil =>
      have ih := TypeExpr.isTranscribed hkeys type htypes.1 hlabels.2.1
      simp only [FieldList.instantiate, FieldList.memberPieces]
      exact .cons ih.transcribes ihrest
    | cons name names =>
      cases type with
      | function params results =>
        simp only [TypeExpr.everywhere, TypeExpr.isSpelled, Bool.and_eq_true] at htypes
        simp only [TypeExpr.labels, List.forall_mem_append, List.forall_mem_cons] at hlabels
        obtain ⟨⟨hlists, hinside⟩, -⟩ := htypes
        obtain ⟨hname, hinsideLabels, -⟩ := hlabels
        have hparams := FieldList.transcribes_entryPieces hkeys params
          (FieldList.all_isSpelled_of_isEntry hlists.1) hinside.1 hinsideLabels.1
        have hresults := FieldList.transcribe_resultPieces hkeys results
          (FieldList.all_isSpelled_of_isEntry hlists.2) hinside.2 hinsideLabels.2
        refine .cons (fun before _ => ?_) ihrest
        rw [transcribe_ident_cons hname.1, sourceOf_cons, Segment.source]
        exact congrArg _ (transcribe_signature hparams hresults _)
      | _ => cases names <;> cases hmethod

end

/-! ## 5. Colons -/

theorem beginsWithoutColon_of {text : String} {c : Char} {cs : List Char}
    (htext : text.toList = c :: cs) (hblank : Text.isBlank c = false) (hcolon : c ≠ ':') :
    beginsWithoutColon text = true := by
  simp [beginsWithoutColon, Text.dropBlank, htext, hblank, hcolon]

theorem beginsWithoutColon_of_isTag {tag : String} (h : isTag tag = true) :
    beginsWithoutColon tag = true := by
  rcases cases_of_isTag h with ⟨inner, hchars, -⟩ | ⟨inner, hchars, -⟩
  · exact beginsWithoutColon_of hchars rfl (by decide)
  · exact beginsWithoutColon_of hchars rfl (by decide)

theorem beginsWithoutColon_of_isNumber {length : String} (h : isNumber length = true) :
    beginsWithoutColon length = true := by
  obtain ⟨hne, hdigits⟩ := Bool.and_eq_true_iff.mp h
  cases htext : length.toList with
  | nil => simp [htext] at hne
  | cons c cs =>
    rw [htext, List.all_cons, Bool.and_eq_true] at hdigits
    obtain ⟨-, hblank, hcolon⟩ := isXidContinue_of_isDigit hdigits.1
    exact beginsWithoutColon_of htext hblank hcolon

theorem avoidsColons_enclosed {opening closing : Char}
    (hopens : closer? opening = some closing) (h : AvoidsColons pieces) :
    AvoidsColons (enclosed opening closing pieces) := by
  rcases cases_of_closer? hopens with ⟨rfl, rfl⟩ | ⟨rfl, rfl⟩ | ⟨rfl, rfl⟩ <;>
    simp +decide [enclosed, h]

theorem avoidsColons_separated {separator : String}
    (hseparator : beginsWithoutColon separator = true) : ∀ {items : List (List Segment)},
    (∀ item ∈ items, AvoidsColons item) → AvoidsColons (separated separator items)
  | [], _ => avoidsColons_nil
  | [item], h => h item List.mem_cons_self
  | item :: next :: rest, h => by
    have hrest := avoidsColons_separated hseparator
      fun other hmem => h other (List.mem_cons_of_mem item hmem)
    simp [separated, h, hseparator, hrest]

theorem avoidsColons_listPieces {entries : List (List Segment)}
    (h : ∀ entry ∈ entries, AvoidsColons entry) : AvoidsColons (listPieces entries) :=
  avoidsColons_enclosed rfl (avoidsColons_separated (by decide) h)

theorem avoidsColons_blockPieces {items : List (List Segment)}
    (h : ∀ item ∈ items, AvoidsColons item) : AvoidsColons (blockPieces items) := by
  cases items with
  | nil => exact avoidsColons_enclosed rfl avoidsColons_nil
  | cons item items =>
    have hlist : AvoidsColons (separated "; " (item :: items)) :=
      avoidsColons_separated (by decide) h
    refine avoidsColons_text_cons.mpr ⟨by decide, avoidsColons_enclosed rfl ?_⟩
    simp +decide [hlist]

theorem avoidsColons_entryPieces {names : List String} {tag : Option String}
    (htag : tag.all isTag = true) (h : AvoidsColons pieces) :
    AvoidsColons (entryPieces names pieces tag) := by
  have hnames : AvoidsColons (namePieces names) := by
    refine avoidsColons_separated (by decide) fun item hmem => ?_
    obtain ⟨name, -, rfl⟩ := List.mem_map.mp hmem
    simp
  have htagged : AvoidsColons (tag.toList.flatMap fun tag => [.text " ", .text tag]) := by
    cases tag with
    | none => exact avoidsColons_nil
    | some tag => simp +decide [beginsWithoutColon_of_isTag htag]
  unfold entryPieces
  split <;> simp +decide [hnames, h, htagged]

mutual

/-- No piece of a type begins with a colon. -/
theorem TypeExpr.avoidsColons_pieces : ∀ type : TypeExpr,
    type.everywhere (TypeExpr.isSpelled isNumber) = true → AvoidsColons type.pieces
  | .name _, _ => by simp [TypeExpr.pieces]
  | .qualified _ _, _ => by simp +decide [TypeExpr.pieces]
  | .pointer elem, h | .variadic elem, h => by
    have ih := TypeExpr.avoidsColons_pieces elem (Bool.and_eq_true_iff.mp h).2
    simp +decide [TypeExpr.pieces, ih]
  | .array length elem, h => by
    obtain ⟨hlength, helem⟩ := Bool.and_eq_true_iff.mp h
    have hpieces : AvoidsColons (length.toList.flatMap lengthPieces) := by
      rw [pieces_length hlength]
      cases length with
      | none => exact avoidsColons_nil
      | some length => simp [beginsWithoutColon_of_isNumber hlength]
    exact avoidsColons_append.mpr
      ⟨avoidsColons_enclosed rfl hpieces, TypeExpr.avoidsColons_pieces elem helem⟩
  | .paren inner, h =>
    avoidsColons_enclosed rfl (TypeExpr.avoidsColons_pieces inner (Bool.and_eq_true_iff.mp h).2)
  | .channel direction value, h => by
    have ih := TypeExpr.avoidsColons_pieces value (Bool.and_eq_true_iff.mp h).2
    have hvalue : AvoidsColons
        (if needsParens direction value then enclosed '(' ')' value.pieces else value.pieces) := by
      split
      · exact avoidsColons_enclosed rfl ih
      · exact ih
    cases direction <;> simp +decide [TypeExpr.pieces, Direction.pieces, hvalue]
  | .map key value, h => by
    simp only [TypeExpr.everywhere, Bool.and_eq_true] at h
    have hkey : AvoidsColons (enclosed '[' ']' key.pieces) :=
      avoidsColons_enclosed rfl (TypeExpr.avoidsColons_pieces key h.2.1)
    simp [TypeExpr.pieces, hkey, TypeExpr.avoidsColons_pieces value h.2.2]
  | .function params results, h => by
    simp only [TypeExpr.everywhere, TypeExpr.isSpelled, Bool.and_eq_true] at h
    have hparams := avoidsColons_listPieces (FieldList.avoidsColons_entryPieces params
      (FieldList.all_isSpelled_of_isEntry h.1.1) h.2.1)
    have hresults := FieldList.avoidsColons_resultPieces results
      (FieldList.all_isSpelled_of_isEntry h.1.2) h.2.2
    simp [TypeExpr.pieces, hparams, hresults]
  | .struct fields, h => by
    simp only [TypeExpr.everywhere, TypeExpr.isSpelled, Bool.and_eq_true] at h
    have hfields := FieldList.avoidsColons_entryPieces fields h.1 h.2
    simp [TypeExpr.pieces, avoidsColons_blockPieces hfields]
  | .interface members, h => by
    simp only [TypeExpr.everywhere, TypeExpr.isSpelled, Bool.and_eq_true] at h
    have hmembers := FieldList.avoidsColons_memberPieces members h.1 h.2
    simp [TypeExpr.pieces, avoidsColons_blockPieces hmembers]

theorem FieldList.avoidsColons_entryPieces : ∀ fields : FieldList,
    fields.toList.all Field.isSpelled = true →
    fields.everywhere (TypeExpr.isSpelled isNumber) = true →
    ∀ entry ∈ fields.entryPieces, AvoidsColons entry
  | .nil, _, _ => by simp [FieldList.entryPieces]
  | .cons names type tag rest, hspelled, htypes => by
    simp only [FieldList.toList, List.all_cons, Bool.and_eq_true] at hspelled
    simp only [FieldList.everywhere, Bool.and_eq_true] at htypes
    obtain ⟨-, htag⟩ := Bool.and_eq_true_iff.mp hspelled.1
    rw [FieldList.entryPieces, List.forall_mem_cons]
    exact ⟨GoStencil.avoidsColons_entryPieces htag (TypeExpr.avoidsColons_pieces type htypes.1),
      FieldList.avoidsColons_entryPieces rest hspelled.2 htypes.2⟩

theorem FieldList.avoidsColons_resultPieces : ∀ results : FieldList,
    results.toList.all Field.isSpelled = true →
    results.everywhere (TypeExpr.isSpelled isNumber) = true → AvoidsColons results.resultPieces
  | .nil, _, _ => avoidsColons_nil
  | .cons names type tag rest, hspelled, htypes => by
    simp only [FieldList.toList, List.all_cons, Bool.and_eq_true] at hspelled
    simp only [FieldList.everywhere, Bool.and_eq_true] at htypes
    obtain ⟨-, htag⟩ := Bool.and_eq_true_iff.mp hspelled.1
    have htype := TypeExpr.avoidsColons_pieces type htypes.1
    have hlist : AvoidsColons
        (listPieces (GoStencil.entryPieces names type.pieces tag :: rest.entryPieces)) :=
      avoidsColons_listPieces (List.forall_mem_cons.mpr
        ⟨GoStencil.avoidsColons_entryPieces htag htype,
          FieldList.avoidsColons_entryPieces rest hspelled.2 htypes.2⟩)
    match names, rest with
    | [], .nil => simp +decide [FieldList.resultPieces, htype]
    | [], .cons .. | _ :: _, _ => exact avoidsColons_text_cons.mpr ⟨by decide, hlist⟩

theorem FieldList.avoidsColons_memberPieces : ∀ members : FieldList,
    (members.toList.all fun field => field.isEntry && field.isMethodIfNamed) = true →
    members.everywhere (TypeExpr.isSpelled isNumber) = true →
    ∀ item ∈ members.memberPieces, AvoidsColons item
  | .nil, _, _ => by simp [FieldList.memberPieces]
  | .cons names type tag rest, hspelled, htypes => by
    simp only [FieldList.toList, List.all_cons, Bool.and_eq_true] at hspelled
    simp only [FieldList.everywhere, Bool.and_eq_true] at htypes
    have htype := TypeExpr.avoidsColons_pieces type htypes.1
    have ihrest := FieldList.avoidsColons_memberPieces rest hspelled.2 htypes.2
    -- a method is written as its type is, with its name for the keyword
    have hitem : ∃ item, (FieldList.cons names type tag rest).memberPieces =
        item :: rest.memberPieces ∧ AvoidsColons item := by
      cases names <;> cases type <;>
        first | exact ⟨_, rfl, htype⟩ | exact ⟨_, rfl, by simpa [TypeExpr.pieces] using htype⟩
    obtain ⟨item, hitems, hitem⟩ := hitem
    rw [hitems, List.forall_mem_cons]
    exact ⟨hitem, ihrest⟩

end

/-! ## 6. Two ways to an instance -/

/-- The text of a type between braces is the body of a function, and the instance of this body is
    the text of the instance of the type, whichever parentheses the type has. -/
theorem TypeExpr.exists_body (hkeys : subst.BindsOnlyNames) {type : TypeExpr}
    (hspelled : type.everywhere (TypeExpr.isSpelled isNumber) = true)
    (hlabels : ∀ label ∈ type.labels, subst.bindsName label = false) :
    ∃ body, Body.parse? ("\x7b" ++ type.render ++ "\x7d") = some body ∧
      (body.instantiate subst).source = "\x7b" ++ (type.instantiate subst).render ++ "\x7d" := by
  have hcut : IsCut Pattern.textStops EndsWord type.pieces :=
    TypeExpr.isCut_pieces areGroups_isNumber (.inl rfl) type hspelled
  have hcolons : AvoidsColons (enclosed '\x7b' '\x7d' type.pieces) :=
    avoidsColons_enclosed rfl (TypeExpr.avoidsColons_pieces type hspelled)
  have hplace : awaitsType (stack [] (.text "\x7b")) = true := awaitsType_stack (by decide) []
  refine ⟨ofSegments (enclosed '\x7b' '\x7d' type.pieces), ?_, ?_⟩
  · rw [← TypeExpr.sourceOf_pieces]
    exact parse?_of_isCut hcut
  · rw [source_instantiate_ofSegments hcolons, transcribe_enclosed,
      ← TypeExpr.sourceOf_pieces, String.append_assoc]
    exact congrArg (fun text => "\x7b" ++ (text ++ "\x7d"))
      ((TypeExpr.isTranscribed hkeys type hspelled hlabels).transcribes _ hplace)

/-- **To instantiate the text of a type is to write its instance**: the tree and the stream of
    tokens that is read of its text have the same instance. -/
theorem TypeExpr.IsParsed.source_instantiate {type : TypeExpr} (h : type.IsParsed)
    (hlengths : type.everywhere TypeExpr.hasDecimalLength = true) (hkeys : subst.BindsOnlyNames)
    (hlabels : ∀ label ∈ type.labels, subst.bindsName label = false) :
    ∃ body, Body.parse? ("\x7b" ++ type.render ++ "\x7d") = some body ∧
      (body.instantiate subst).source = "\x7b" ++ (type.instantiate subst).render ++ "\x7d" :=
  TypeExpr.exists_body hkeys (h.everywhere_isSpelled
    (funext TypeExpr.hasLength_isNumber ▸ hlengths)) hlabels

/-- A channel put in for a name gets parentheses after `chan`, and nowhere else; the name in a
    package stays. -/
theorem TypeExpr.IsParsed.source_instantiate_channel :
    ∃ body,
      Body.parse? ("\x7bfunc(chan<- T, map[[4]T]pkg.T, ...T) " ++
        "struct \x7b T \x60n\x60; t []T \x7d\x7d") = some body ∧
      (body.instantiate ⟨[(.name "T", .channel .receive (.name "int"))], by decide⟩).source =
        "\x7bfunc(chan<- (<-chan int), map[[4]<-chan int]pkg.T, ...<-chan int) " ++
          "struct \x7b <-chan int \x60n\x60; t []<-chan int \x7d\x7d" := by
  have hname : TypeExpr.IsParsed (.name "T") := .name (by decide +kernel)
  have hqualified : TypeExpr.IsParsed (.qualified "pkg" "T") :=
    .qualified (by decide +kernel) (by decide +kernel)
  have hstruct : TypeExpr.IsParsed (.struct (.cons [] (.name "T") (some "\x60n\x60")
      (.cons ["t"] (.array none (.name "T")) none .nil))) := by
    refine .struct ?_ ?_ <;> simp only [FieldList.toList, List.forall_mem_cons, List.not_mem_nil,
      false_imp_iff, implies_true, and_true]
    · exact ⟨⟨rfl, fun _ => rfl, fun tag h => by cases h; decide +kernel⟩,
        ⟨by decide +kernel, nofun, nofun⟩⟩
    · exact ⟨hname, .slice hname⟩
  have hparsed : TypeExpr.IsParsed (.function
      (.cons [] (.channel .send (.name "T")) none
        (.cons [] (.map (.array (some "4") (.name "T")) (.qualified "pkg" "T")) none
          (.cons [] (.variadic (.name "T")) none .nil)))
      (.cons [] (.struct (.cons [] (.name "T") (some "\x60n\x60")
        (.cons ["t"] (.array none (.name "T")) none .nil))) none .nil)) := by
    refine .function ⟨by decide, by decide, by decide⟩ ⟨by decide, by decide, by decide⟩ ?_ ?_ <;>
      simp only [FieldList.toList, List.forall_mem_cons, List.not_mem_nil, false_imp_iff,
        implies_true, and_true]
    · have hlength : IsLength "4" := ⟨by decide, List.forall_mem_singleton.mpr (by decide)⟩
      exact ⟨.channel rfl hname, .map (.array hlength hname) hqualified, hname⟩
    · exact hstruct
  refine hparsed.source_instantiate (by decide +kernel) ?_ (by decide +kernel)
  intro key hkey
  obtain rfl := List.mem_singleton.mp hkey
  exact ⟨"T", by decide, rfl⟩

end GoStencil
