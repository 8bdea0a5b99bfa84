import GoStencil.Proofs.Instantiation
import GoStencil.Proofs.Stream.Replacement
import GoStencil.Proofs.TypeExpr.Pieces

/-!
# Instances of streams

In an instance of a stream, types stand for some of its words. Their texts are parts of a stream, so
the instance is scanned as the stream is, with the types in it.

* `TypeExpr.isPhrase_render`: the text of a type can stand for a word.
* `Segment.Becomes`: what an instance may have in place of a segment.
* `keepsSlashes`: nowhere would a slash and the star of a pointer begin a comment.
* `exists_replaces`, `Body.exists_replaces_instantiate`: an instance writes the lexemes of its
  stream with phrases for some words.
-/

namespace GoStencil

open Body Grammar

/-! ## 1. Texts of types -/

/-- Whether the type is a pointer. -/
def TypeExpr.isPointer : TypeExpr → Bool
  | .pointer _ => true
  | _ => false

theorem Grammar.IsPhrase.of_isCut {pieces : List Segment}
    (hopens : ∃ c cs, (sourceOf pieces).toList = c :: cs ∧ c.isDigit = false ∧ c ≠ '/')
    (h : ∀ stops, IsStops stops → IsCut stops EndsWord pieces) :
    IsPhrase (sourceOf pieces).toList := by
  have hscans : ∀ stops rest, IsStops stops → EndsWord rest →
      Scans ((sourceOf pieces).toList ++ rest) (scan (sourceOf pieces).toList) rest ∧
        Nested stops (scan (sourceOf pieces).toList) := by
    intro stops rest hstops hrest
    obtain ⟨lexemes, hscans, hnested, -⟩ := h stops hstops rest hrest
    obtain ⟨cs, hcs, rfl⟩ := hscans.exists_scan
    rw [List.append_cancel_right hcs]
    rw [List.append_cancel_right hcs] at hscans
    exact ⟨hscans, hnested⟩
  exact ⟨hopens, fun stops hstops => (hscans stops [] hstops rfl).2,
    fun rest hrest => (hscans _ rest (.inl rfl) hrest).1⟩

section Phrases

variable {p : String → Bool} {type : TypeExpr}

theorem TypeExpr.isName_of_firstName? (h : type.everywhere (TypeExpr.isSpelled p) = true)
    {ident : String} (hident : type.firstName? = some ident) : isName ident = true := by
  cases type with
  | name =>
    cases hident
    exact h
  | qualified =>
    cases hident
    exact (Bool.and_eq_true_iff.mp h).1
  | _ => cases hident

theorem TypeExpr.ne_of_symbol? {c : Char} (h : type.symbol? = some c) :
    c.isDigit = false ∧ c ≠ '/' := by
  unfold TypeExpr.symbol? at h
  split at h <;> cases h <;> decide

theorem TypeExpr.isPointer_of_symbol? (h : type.symbol? = some '*') : type.isPointer = true := by
  unfold TypeExpr.symbol? at h
  split at h <;> first | rfl | cases h

theorem ne_of_isIdentifierStart {c : Char} (h : Text.isIdentifierStart c = true) :
    c.isDigit = false ∧ c ≠ '/' ∧ c ≠ '*' := by
  refine ⟨Bool.eq_false_iff.mpr fun hdigit => ?_, ?_, ?_⟩
  · rw [(of_isDigit hdigit).1] at h
    cases h
  · rintro rfl
    revert h
    decide
  · rintro rfl
    revert h
    decide

/-- The text of a type begins with neither a digit nor a slash, and with a star if it is a
    pointer. -/
theorem TypeExpr.exists_start (h : type.everywhere (TypeExpr.isSpelled p) = true) :
    ∃ c cs, type.render.toList = c :: cs ∧ c.isDigit = false ∧ c ≠ '/' ∧
      (c = '*' → type.isPointer = true) := by
  obtain ⟨c, cs, hchars, hsymbol | ⟨-, hstart⟩⟩ :=
    TypeExpr.exists_head fun ident hident => TypeExpr.isName_of_firstName? h hident
  · obtain ⟨hdigit, hslash⟩ := TypeExpr.ne_of_symbol? hsymbol
    exact ⟨c, cs, hchars, hdigit, hslash, fun hstar =>
      TypeExpr.isPointer_of_symbol? (hstar ▸ hsymbol)⟩
  · obtain ⟨hdigit, hslash, hstar⟩ := ne_of_isIdentifierStart hstart
    exact ⟨c, cs, hchars, hdigit, hslash, fun heq => absurd heq hstar⟩

/-- **The text of a type can stand for a word**, if the lengths in it are groups. -/
theorem TypeExpr.isPhrase_render (hp : AreGroups p)
    (h : type.everywhere (TypeExpr.isSpelled p) = true) : IsPhrase type.render.toList := by
  obtain ⟨c, cs, hchars, hdigit, hslash, -⟩ := TypeExpr.exists_start h
  rw [← TypeExpr.sourceOf_pieces] at hchars ⊢
  exact .of_isCut ⟨c, cs, hchars, hdigit, hslash⟩
    fun stops hstops => TypeExpr.isCut_pieces hp hstops type h

end Phrases

/-! ## 2. Segments of instances -/

section Segments

variable {subst : Substitution}

/-- What an instance may have in place of a segment: the segment, or what is bound to it. -/
inductive Segment.Becomes (subst : Substitution) : Segment → Segment → Prop where
  | same (segment : Segment) : Becomes subst segment segment
  | bound {ident : String} {value : TypeExpr} (before : List Segment)
      (h : subst.getName? ident = some value) :
      Becomes subst (.ident ident) (boundSegment before value)

theorem becomes_instantiateSegment (before : List Segment) (segment : Segment)
    (after : List Segment) :
    segment.Becomes subst (instantiateSegment subst before segment after) := by
  cases segment with
  | text => exact .same _
  | ident ident =>
    rw [instantiateSegment]
    cases hbound : subst.getName? ident with
    | none => exact .same _
    | some value =>
      dsimp only
      split
      · exact .same _
      · exact .bound before hbound

theorem forall₂_becomes : ∀ before segments : List Segment,
    List.Forall₂ (Segment.Becomes subst) segments (instantiateSegments subst before segments)
  | _, [] => .nil
  | before, segment :: after =>
    .cons (becomes_instantiateSegment before segment after) (forall₂_becomes _ after)

/-- Text stays as it is, also in front of other text. -/
theorem exists_of_joinSegment {text : String} {segments others : List Segment}
    (h : List.Forall₂ (Segment.Becomes subst) (joinSegment (.text text) segments) others) :
    ∃ rest, List.Forall₂ (Segment.Becomes subst) segments rest ∧
      sourceOf others = text ++ sourceOf rest := by
  match segments with
  | .text next :: segments =>
    cases h with
    | cons hfirst hrest =>
      cases hfirst
      exact ⟨_, .cons (.same (.text next)) hrest, by simp [Segment.source, String.append_assoc]⟩
  | [] | .ident _ :: _ =>
    cases h with
    | cons hfirst hrest =>
      cases hfirst
      exact ⟨_, hrest, by simp [Segment.source]⟩

/-! ## 3. Lexemes of instances -/

/-- Whether no pointer is put in for a word right after a slash, where its star would begin a
    comment. The flag says whether a slash stands before. -/
def keepsSlashes (subst : Substitution) : Bool → List Lexeme → Bool
  | _, [] => true
  | slash, lexeme :: rest =>
    !(slash && lexeme.word?.any fun ident =>
      (subst.getName? ident).any TypeExpr.isPointer) && keepsSlashes subst lexeme.isSlash rest

/-- What stands for a bound name is a phrase, and has a star for a pointer only. -/
theorem isPhrase_boundSegment {p : String → Bool} (hp : AreGroups p) {value : TypeExpr}
    (h : value.everywhere (TypeExpr.isSpelled p) = true) (before : List Segment) :
    IsPhrase (boundSegment before value).source.toList ∧
      ((boundSegment before value).source.toList.head? = some '*' → value.isPointer = true) := by
  -- the name does not matter, as it is no channel
  rw [source_boundSegment before ""]
  have hvalue : ∀ type : TypeExpr, type.everywhere (TypeExpr.isSpelled p) = true →
      IsPhrase type.render.toList ∧
        (type.render.toList.head? = some '*' → type.isPointer = true) := by
    intro type htype
    obtain ⟨c, cs, hchars, -, -, hstar⟩ := TypeExpr.exists_start htype
    refine ⟨TypeExpr.isPhrase_render hp htype, fun hhead => hstar ?_⟩
    rw [hchars] at hhead
    exact Option.some.inj hhead
  have hparen : value.paren.everywhere (TypeExpr.isSpelled p) = true :=
    Bool.and_eq_true_iff.mpr ⟨rfl, h⟩
  unfold channelValue
  split_ifs
  · exact ⟨(hvalue _ hparen).1, fun hstar => nomatch (hvalue _ hparen).2 hstar⟩
  · exact hvalue value h
  · exact hvalue value h

/-- **An instance writes the lexemes of its stream with phrases for some words.** -/
theorem exists_replaces {p : String → Bool} (hp : AreGroups p) {lexemes : List Lexeme}
    (hvalues : ∀ lexeme ∈ lexemes, ∀ ident, lexeme.word? = some ident →
      ∀ value, subst.getName? ident = some value → value.everywhere (TypeExpr.isSpelled p) = true)
    {slash : Bool} (hslashes : keepsSlashes subst slash lexemes = true) {others : List Segment}
    (h : List.Forall₂ (Segment.Becomes subst)
      ((lexemes.map Lexeme.segment).foldr joinSegment []) others) :
    ∃ after, Replaces slash lexemes after ∧
      (sourceOf others).toList = after.flatMap Lexeme.chars := by
  induction lexemes generalizing slash others with
  | nil =>
    cases h
    exact ⟨[], .nil, rfl⟩
  | cons lexeme lexemes ih =>
    rw [keepsSlashes, Bool.and_eq_true_iff] at hslashes
    obtain ⟨hfirst, hslashes⟩ := hslashes
    have ih {others} := @ih
      (fun other hmem => hvalues other (List.mem_cons_of_mem _ hmem)) lexeme.isSlash hslashes others
    have htext : ∀ {text : String}, lexeme.segment = .text text → lexeme.chars = text.toList →
        ∃ after, Replaces slash (lexeme :: lexemes) after ∧
          (sourceOf others).toList = after.flatMap Lexeme.chars := by
      intro text hsegment hchars
      rw [List.map_cons, List.foldr_cons, hsegment] at h
      obtain ⟨rest, hrest, hsource⟩ := exists_of_joinSegment h
      obtain ⟨after, hafter, hchars'⟩ := ih hrest
      refine ⟨lexeme :: after, .keep hafter, ?_⟩
      rw [hsource, String.toList_append, hchars', List.flatMap_cons, hchars]
    cases lexeme with
    | word cs =>
      rw [List.map_cons, List.foldr_cons] at h
      cases h with
      | cons hbecomes hrest =>
        obtain ⟨after, hafter, hchars⟩ := ih hrest
        rw [sourceOf_cons, String.toList_append, hchars]
        cases hbecomes with
        | same =>
          exact ⟨.word cs :: after, .keep hafter,
            by simp [Lexeme.segment, Segment.source, Lexeme.chars]⟩
        | @bound _ value before hbound =>
          obtain ⟨hphrase, hstar⟩ := isPhrase_boundSegment hp
            (hvalues _ List.mem_cons_self _ rfl value hbound) before
          refine ⟨_, .word hphrase (fun hslash hhead => ?_) hafter, by simp [chars_scan]⟩
          simp [hslash, Lexeme.word?, hbound, hstar hhead] at hfirst
    | bracket c => exact htext rfl (by simp [Lexeme.chars])
    | plain cs => exact htext rfl (by simp [Lexeme.chars])

/-! ## 4. Streams -/

/-- Whether a stream with everything bound put in is scanned as the stream is: the lengths of arrays
    that are put in are groups in their brackets, and no comment begins with the star of a
    pointer. -/
def Body.keepsLexemes (subst : Substitution) (body : Body) : Bool :=
  body.identifiers.all (fun ident => (subst.getName? ident).all fun value =>
    value.everywhere (TypeExpr.hasLength isGroupLength)) &&
  keepsSlashes subst false (scan body.source.toList)

/-- **An instance of a stream that has been scanned writes what was scanned, with phrases for some
    words.** -/
theorem Body.exists_replaces_instantiate
    (hvalues : ∀ value ∈ subst.values, value.variadicElem.IsParsed) {cs : List Char}
    (h : (Body.ofScan cs).keepsLexemes subst = true) :
    ∃ after, Replaces false (scan cs) after ∧
      ((Body.ofScan cs).instantiate subst).source = String.ofList (after.flatMap Lexeme.chars) := by
  obtain ⟨hlengths, hslashes⟩ := Bool.and_eq_true_iff.mp h
  rw [source_ofScan, String.toList_ofList] at hslashes
  rw [identifiers_ofScan] at hlengths
  have hspelled : ∀ lexeme ∈ scan cs, ∀ ident, lexeme.word? = some ident →
      ∀ value, subst.getName? ident = some value →
        value.everywhere (TypeExpr.isSpelled isGroupLength) = true := by
    intro lexeme hmem ident hident value hvalue
    have hlength := List.all_eq_true.mp hlengths ident
      (List.mem_filterMap.mpr ⟨lexeme, hmem, hident⟩)
    rw [hvalue, Option.all_some] at hlength
    exact TypeExpr.everywhere_isSpelled_of_variadicElem
      (hvalues value (Substitution.mem_values_of_get? hvalue)) hlength
  obtain ⟨after, hafter, hchars⟩ :=
    exists_replaces areGroups_isGroupLength hspelled hslashes (forall₂_becomes [] _)
  refine ⟨after, hafter, ?_⟩
  rw [instantiate, source_ofSegments, ← hchars]
  exact (String.ofList_toList).symm

end Segments

end GoStencil
