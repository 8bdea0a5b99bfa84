import GoStencil.SourceFile.Printer
import GoStencil.Proofs.TypeExpr.RoundTrip

/-!
# How items on lines of their own are read

A struct or interface that is declared has one member to a line, and so have several imports.

* `takes_lines`: items between brackets are read, each on a line of its own.
* `TypeExpr.takes_renderBlock`: the type of a declaration is read from its text.
-/

namespace GoStencil.Grammar

open Pattern

variable {tail rest : List Char}

/-! ## 1. Line ends -/

theorem skips_tab (h : noGap rest = true) : Skips ('\t' :: rest) rest := by
  have hround : Takes .token (oneOf [text " ", text "\t"]) ('\t' :: rest) rest (· = []) :=
    Refuses.alt_takes (refuses_text_of_head rfl nofun) (takes_text .token "\t" rest)
  have hblanks := hround.many_last (skipsIn_token rest) (refuses_blank h)
  refine (Takes.seq hblanks (skipsIn_token rest) (takes_noComment h)).imp ?_
  rintro nodes ⟨_, _, rfl, rfl, rfl⟩
  rfl

theorem takes_newline (mode : Mode) (rest : List Char) :
    Takes mode newline ('\n' :: rest) rest (· = []) :=
  Takes.alt (takes_text mode "\n" rest)

theorem refuses_lineEnd {cs : List Char} (h : isOpening cs = true) :
    Refuses .spaced (oneOf [newline, text ";"]) (cs ++ tail) :=
  Refuses.alt (refuses_newline (isInked_append h))
    (refuses_text_of_head rfl (head_ne_append h (.inr rfl)))

/-- A line end, and the blanks before what is not at the beginning of its line, are read as a
    separator. -/
theorem takes_separator_line {cs : List Char} (h : isOpening cs = true) :
    Takes .spaced separator ('\n' :: '\t' :: (cs ++ tail)) (cs ++ tail) (· = []) := by
  have hone : Takes .spaced (oneOf [newline, text ";"]) ('\n' :: '\t' :: (cs ++ tail))
      ('\t' :: (cs ++ tail)) (· = []) := Takes.alt (takes_newline .spaced _)
  refine (Takes.seq hone (skips_tab (noGap_of_isInked (isInked_append h)))
    (Refuses.many (refuses_lineEnd h))).imp ?_
  rintro _ ⟨_, _, rfl, rfl, rfl⟩
  rfl

/-! ## 2. Items between brackets -/

/-- Items between two brackets, with separators between them. -/
def bracketed (opening closing : Char) (item : Pattern) : Pattern :=
  inOrder [.literal [opening], newlines, .opt (separated item), .literal [closing]]

/-- Whether a character closes brackets around items. -/
structure Closes (closing : Char) (item : Pattern) : Prop where
  inked : isInked [closing] = true
  ends : closing ≠ ';'
  refuses : ∀ rest, Refuses .spaced item (closing :: rest)

section Lines

variable {α : Type} {fits : List Char → List Char → Prop} {opening closing : Char} {item : Pattern}
  {write : α → List Char} {P : α → List Node → Prop} {first : α} {items : List α}

theorem Closes.refuses_lineEnd (h : Closes closing item) (rest : List Char) :
    Refuses .spaced (oneOf [newline, text ";"]) (closing :: rest) :=
  Refuses.alt (refuses_newline h.inked) (refuses_oneChar rfl h.ends)

theorem Closes.takes_separator (h : Closes closing item) (rest : List Char) :
    Takes .spaced separator ('\n' :: closing :: rest) (closing :: rest) (· = []) := by
  have hone : Takes .spaced (oneOf [newline, text ";"]) ('\n' :: closing :: rest)
      (closing :: rest) (· = []) := Takes.alt (takes_newline .spaced _)
  refine (Takes.seq hone (skips_of_noGap (noGap_of_isInked h.inked))
    (Refuses.many (h.refuses_lineEnd rest))).imp ?_
  rintro _ ⟨_, _, rfl, rfl, rfl⟩
  rfl

variable (rest opening) in
/-- **Items between brackets are read**, each on a line of its own. -/
theorem takes_lines (hclose : Closes closing item)
    (hitems : ∀ one ∈ first :: items, TakesBefore fits item (write one) (P one))
    (hfits : ∀ after, fits ('\n' :: after) ('\n' :: after)) :
    Takes .spaced (bracketed opening closing item)
      (opening :: '\n' :: '\t' ::
        (write first ++ (trailing ['\n', '\t'] write items ++ '\n' :: closing :: rest))) rest
      (Each P (first :: items)) := by
  have hround : Refuses .spaced (.seq separator item) ('\n' :: closing :: rest) :=
    Takes.seq_refuses (hclose.takes_separator rest)
      (skips_of_noGap (noGap_of_isInked hclose.inked)) (hclose.refuses rest)
  obtain ⟨next, stop, hnext, hstop, hmany⟩ := takes_many_items ['\n', '\t'] write
    (fun hitem hfits => by
      obtain ⟨stop, hstop, htakes⟩ := hitem.takes hfits
      have hround : Takes .spaced (.seq separator item) _ stop _ :=
        Takes.seq (takes_separator_line hitem.opens) (skips_append hitem.opens) htakes
      exact ⟨stop, hstop, hround.imp fun _ hnodes => hnodes.nil_left⟩)
    (fun one hone => hitems one (List.mem_cons_of_mem _ hone))
    (fun one _ _ _ _ => hfits _) (hfits (closing :: rest)) (skips_of_noGap rfl) hround
  have hopens := (hitems first List.mem_cons_self).opens
  obtain ⟨mid, hmid, hfirst⟩ := (hitems first List.mem_cons_self).takes hnext
  have hinked : isInked (write first ++
      (trailing ['\n', '\t'] write items ++ '\n' :: closing :: rest)) = true :=
    isInked_append hopens
  have hskips := skips_tab (noGap_of_isInked hinked)
  have hnewlines : Takes .spaced newlines ('\n' :: '\t' :: (write first ++
      (trailing ['\n', '\t'] write items ++ '\n' :: closing :: rest))) _ (· = []) :=
    (takes_newline .spaced _).many_last hskips (refuses_newline hinked)
  have hbody : Takes .spaced (bracketed opening closing item) _ rest _ :=
    Takes.seq (takes_literal .spaced [opening] _) (skips_of_noGap rfl)
      (Takes.seq hnewlines hskips
        (Takes.seq (Takes.opt (Takes.seq hfirst hmid
            (Takes.seq hmany hstop (hclose.takes_separator rest).opt)))
          (skips_of_noGap (noGap_of_isInked hclose.inked))
          (takes_literal .spaced [closing] rest)))
  refine hbody.imp fun nodes hnodes => ?_
  obtain ⟨left, right, rfl, hleft, hright⟩ := hnodes.nil_left.nil_left.nil_right
  exact ⟨left, right, rfl, hleft, hright.nil_right⟩

end Lines

/-! ## 3. Types of declarations -/

theorem toList_indentedLines {α : Type} (write : α → List Char) (first : α) (items : List α)
    {texts : List String} (h : texts.map String.toList = (first :: items).map write) :
    (indentedLines texts).toList =
      '\t' :: (write first ++ (trailing ['\n', '\t'] write items ++ ['\n'])) := by
  induction items generalizing texts first with
  | nil =>
    obtain ⟨text, texts, rfl, hfirst, hnone⟩ := List.map_eq_cons_iff.mp h
    cases List.map_eq_nil_iff.mp hnone
    rw [indentedLines, List.map_singleton, String.toList_join, List.flatMap_singleton,
      String.toList_append, String.toList_append, hfirst]
    rfl
  | cons item items ih =>
    obtain ⟨text, texts, rfl, hfirst, hrest⟩ := List.map_eq_cons_iff.mp h
    have hlines := ih item hrest
    rw [indentedLines, String.toList_join] at hlines
    rw [indentedLines, List.map_cons, String.toList_join, List.flatMap_cons, hlines,
      String.toList_append, String.toList_append, hfirst]
    simp only [trailing, List.flatMap_cons, List.append_assoc]
    rfl

/-- Items as they stand between braces, each on a line of its own. -/
def linesText (write : Field → List Char) (first : Field) (items : List Field) : List Char :=
  ' ' :: '\x7b' :: '\n' :: '\t' ::
    (write first ++ (trailing ['\n', '\t'] write items ++ ['\n', '\x7d']))

theorem takesBlock_lines {item : Pattern} {read : List Node → Parsed FieldList}
    {write : Field → List Char} {first : Field} {items : List Field} (hnil : read [] = .ok .nil)
    (hnone : ∀ rest, Refuses .spaced item ('\x7d' :: rest))
    (hitems : ∀ field ∈ first :: items, TakesBefore FollowsItem item (write field)
      (Adds read field.reread)) :
    TakesBlock item read (linesText write first items)
      (.ofList ((first :: items).map Field.reread)) := by
  intro tail
  have hclose : Closes '\x7d' item := ⟨rfl, by decide, hnone⟩
  have hfits : ∀ after, FollowsItem ('\n' :: after) ('\n' :: after) := fun after =>
    ⟨follows_of_isStop rfl, '\n', after, rfl, .inr (.inl rfl)⟩
  have hblock : Takes .spaced (block item) _ tail _ :=
    takes_lines tail '\x7b' hclose hitems hfits
  have htext : linesText write first items ++ tail =
      ' ' :: '\x7b' :: '\n' :: '\t' ::
        (write first ++ (trailing ['\n', '\t'] write items ++ '\n' :: '\x7d' :: tail)) := by
    simp only [linesText, List.cons_append, List.append_assoc, List.nil_append]
  rw [htext]
  exact ⟨rfl, _, skips_blank rfl, hblock.imp fun nodes hnodes => read_of_each hnil hnodes⟩

end GoStencil.Grammar

namespace GoStencil

open Grammar

theorem toList_renderBlock_struct (names : List String) (field : TypeExpr) (tag : Option String)
    (rest : FieldList) :
    (TypeExpr.struct (.cons names field tag rest)).renderBlock.toList =
      "struct".toList ++ linesText entryText ⟨names, field, tag⟩ rest.toList := by
  have hlines : (indentedLines (FieldList.cons names field tag rest).renderEntries).toList = _ :=
    toList_indentedLines entryText ⟨names, field, tag⟩ rest.toList
      (by rw [FieldList.renderEntries_eq, List.map_map]; rfl)
  rw [TypeExpr.renderBlock, String.toList_append, String.toList_append, hlines]
  simp only [linesText, List.append_assoc, List.cons_append]
  rfl

theorem toList_renderBlock_interface (names : List String) (member : TypeExpr)
    (tag : Option String) (rest : FieldList) :
    (TypeExpr.interface (.cons names member tag rest)).renderBlock.toList =
      "interface".toList ++ linesText memberText ⟨names, member, tag⟩ rest.toList := by
  have hlines : (indentedLines (FieldList.cons names member tag rest).renderMembers).toList = _ :=
    toList_indentedLines _ _ _ (map_toList_renderMembers (.cons names member tag rest))
  rw [TypeExpr.renderBlock, String.toList_append, String.toList_append, hlines]
  simp only [linesText, List.append_assoc, List.cons_append]
  rfl

/-- **The type of a declaration is read from its text.** -/
theorem TypeExpr.IsReadable.takes_renderBlock {type : TypeExpr} (h : type.IsReadable) :
    TakesType type.renderBlock.toList type.reread := by
  have hline := h.takes.1
  cases h with
  | @struct fields hfields htypes =>
    cases fields with
    | nil => exact hline
    | cons names field tag rest =>
      rw [toList_renderBlock_struct, TypeExpr.reread, FieldList.reread_eq]
      exact takesType_struct (takesBlock_lines rfl refuses_fieldDecl fun one hone =>
        takesBefore_field (hfields one hone) (htypes one hone) (htypes one hone).takes.1)
  | @interface members hmembers htypes =>
    cases members with
    | nil => exact hline
    | cons names member tag rest =>
      rw [toList_renderBlock_interface, TypeExpr.reread, FieldList.reread_eq]
      exact takesType_interface (takesBlock_lines rfl refuses_methodSpec fun one hone =>
        takesBefore_member (hmembers one hone) (htypes one hone) (htypes one hone).takes.2)
  | _ => exact hline

end GoStencil
