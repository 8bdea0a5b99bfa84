import GoStencil.Diagnosis
import GoStencil.Proofs.Stream.Tokens
import GoStencil.Proofs.TypeExpr.Forms
import GoStencil.Proofs.TypeExpr.Tokens

/-!
# The declaration that a rejection is blamed on

A report ends with the declaration around the place of the error, when there is one: the last line
before the place that looks like one. A line looks like a declaration as soon as it begins with the
letters of a word that opens one, though a longer word may begin with them.

* `enclosingDeclaration?_eq_some_iff`: the line that is blamed.
* `Rejection.toList_report`: a report is some lines.
* `Rejection.enclosingDeclaration?_of_report`: only the last of them can blame a declaration.
* `diagnose_blames`: what a report says about the line it ends with.
-/

namespace GoStencil

open Grammar

/-! ## 1. Texts on one line -/

/-- Whether a text has no line end in it. -/
def Text.IsOneLine (s : String) : Prop :=
  '\n' ∉ s.toList

namespace Text

instance (s : String) : Decidable (IsOneLine s) :=
  inferInstanceAs (Decidable (¬ _))

theorem isOneLine_ofList {cs : List Char} (h : '\n' ∉ cs) : IsOneLine (String.ofList cs) := by
  rwa [IsOneLine, String.toList_ofList]

theorem IsOneLine.append {s t : String} (hs : IsOneLine s) (ht : IsOneLine t) :
    IsOneLine (s ++ t) := by
  rw [IsOneLine, String.toList_append, List.mem_append]
  exact fun h => h.elim hs ht

theorem not_mem_intercalate {c : Char} {between : List Char} (hbetween : c ∉ between) :
    ∀ {parts : List (List Char)}, (∀ part ∈ parts, c ∉ part) → c ∉ between.intercalate parts
  | [], _ => List.not_mem_nil
  | [part], h => by
    rw [List.intercalate_singleton]
    exact h part List.mem_cons_self
  | part :: next :: rest, h => by
    rw [List.intercalate_cons_cons, List.mem_append, List.mem_append]
    have hrest := not_mem_intercalate hbetween fun other hmem =>
      h other (List.mem_cons_of_mem part hmem)
    rintro ((hmem | hmem) | hmem)
    · exact h part List.mem_cons_self hmem
    · exact hbetween hmem
    · exact hrest hmem

theorem isOneLine_intercalate {between : String} {parts : List String}
    (hbetween : IsOneLine between) (h : ∀ part ∈ parts, IsOneLine part) :
    IsOneLine (between.intercalate parts) := by
  rw [IsOneLine, String.toList_intercalate]
  refine not_mem_intercalate hbetween fun cs hmem => ?_
  obtain ⟨part, hpart, rfl⟩ := List.mem_map.mp hmem
  exact h part hpart

theorem isDigit_of_mem_toString {n : Nat} {c : Char} (h : c ∈ (toString n).toList) :
    c.isDigit = true := by
  rw [Nat.toString_eq_ofList_toDigits, String.toList_ofList] at h
  exact Nat.isDigit_of_mem_toDigits (by decide) (Nat.le_refl 10) h

theorem isOneLine_toString (n : Nat) : IsOneLine (toString n) := fun h =>
  absurd (isDigit_of_mem_toString h) (by decide)

/-- The first line of what begins with a letter begins with it. -/
theorem exists_splitOn_cons {c : Char} (hc : c ≠ '\n') (rest : List Char) :
    ∃ first more, (c :: rest).splitOn '\n' = (c :: first) :: more := by
  rw [List.splitOn_cons_eq_if_modifyHead, if_neg (by simpa using hc)]
  cases hsplit : rest.splitOn '\n' with
  | nil => exact absurd hsplit (List.splitOn_ne_nil _ _)
  | cons first more => exact ⟨first, more, rfl⟩

theorem exists_append_of_not_mem {α : Type} {first second before after : List α} {a : α}
    (h : first ++ second = before ++ a :: after) (ha : a ∉ first) :
    ∃ between, second = between ++ a :: after := by
  rcases List.append_eq_append_iff.mp h with ⟨between, -, hsecond⟩ | ⟨between, rfl, hsecond⟩
  · exact ⟨between, hsecond⟩
  · cases between with
    | nil => exact ⟨[], hsecond.symm⟩
    | cons b between =>
      cases hsecond
      exact absurd (List.mem_append_right _ List.mem_cons_self) ha

/-- No line of a text has a line end in it. -/
theorem not_mem_linesFrom {rest : List Char} : ∀ {line : List Char}, '\n' ∉ line →
    ∀ one ∈ linesFrom line rest, '\n' ∉ one := by
  induction rest with
  | nil =>
    intro line h one hmem
    unfold linesFrom at hmem
    split at hmem
    · cases hmem
    · rw [List.mem_singleton.mp hmem, List.mem_reverse]
      exact h
  | cons c rest ih =>
    intro line h one hmem
    by_cases hc : c = '\n'
    · subst hc
      rcases List.mem_cons.mp hmem with rfl | hmem
      · unfold endedLine
        split
        · exact fun hmem => h (List.mem_cons_of_mem _ (List.mem_reverse.mp hmem))
        · exact fun hmem => h (List.mem_reverse.mp hmem)
      · exact ih List.not_mem_nil one hmem
    · rw [linesFrom] at hmem
      · refine ih (fun hline => ?_) one hmem
        rcases List.mem_cons.mp hline with e | hline
        · exact hc e.symm
        · exact h hline
      · exact hc

theorem isOneLine_of_mem_lines {text line : String} (h : line ∈ lines text) : IsOneLine line := by
  obtain ⟨cs, hcs, rfl⟩ := List.mem_map.mp h
  exact isOneLine_ofList (not_mem_linesFrom List.not_mem_nil cs hcs)

theorem IsOneLine.trim {s : String} (h : IsOneLine s) : IsOneLine (trim s) :=
  isOneLine_ofList fun hmem =>
    h ((List.dropWhile_sublist _).subset (mem_of_mem_dropBlankEnd hmem))

theorem trimEnd_trimStart (s : String) : trimEnd (trimStart s) = trim s := by
  rw [trimEnd, trimStart, String.toList_ofList, trim]

end Text

/-! ## 2. The line that is blamed -/

/-- Whether a line begins, after its blanks, with the letters of a word that opens a
    declaration. -/
def LooksLikeDeclaration (line : String) : Prop :=
  ∃ word ∈ declarationWords, word.toList <+: (Text.trimStart line).toList

/-- Whether a line opens a declaration: it begins, after its blanks, with such a word, and no
    further letter continues the word. -/
def OpensDeclaration (line : String) : Prop :=
  ∃ word ∈ declarationWords, isWordAt word (Text.trimStart line).toList = true

/-- Whether a line begins, after its blanks, with a word that is longer than such a word. -/
def BeginsLongerWord (line : String) : Prop :=
  ∃ word ∈ declarationWords, ∃ rest, (Text.trimStart line).toList = word.toList ++ rest ∧
    continues rest = true

instance (line : String) : Decidable (OpensDeclaration line) :=
  inferInstanceAs (Decidable (∃ word ∈ declarationWords, _))

/-- Whether a line, without the blanks at its ends, is the last one of a text with a property. -/
def Text.IsLastLine (p : String → Prop) (text line : String) : Prop :=
  ∃ earlier found later, lines text = earlier ++ found :: later ∧ p found ∧
    (∀ other ∈ later, ¬ p other) ∧ line = trim found

theorem isWordAt_append {word : String} (rest : List Char) :
    isWordAt word (word.toList ++ rest) = !continues rest := by
  have hprefix : word.toList.isPrefixOf (word.toList ++ rest) = true :=
    List.isPrefixOf_iff_prefix.mpr (List.prefix_append _ _)
  rw [isWordAt, hprefix, List.drop_left, Bool.true_and]

/-- What looks like a declaration opens one, unless a longer word begins it. -/
theorem looksLikeDeclaration_iff {line : String} :
    LooksLikeDeclaration line ↔ OpensDeclaration line ∨ BeginsLongerWord line := by
  constructor
  · rintro ⟨word, hword, rest, hrest⟩
    cases hcontinues : continues rest with
    | false =>
      refine .inl ⟨word, hword, ?_⟩
      rw [← hrest, isWordAt_append, hcontinues]
      rfl
    | true => exact .inr ⟨word, hword, rest, hrest.symm, hcontinues⟩
  · rintro (⟨word, hword, hopens⟩ | ⟨word, hword, rest, hrest, -⟩)
    · exact ⟨word, hword, List.isPrefixOf_iff_prefix.mp (Bool.and_eq_true_iff.mp hopens).1⟩
    · exact ⟨word, hword, rest, hrest.symm⟩

theorem any_isPrefixOf_iff {line : String} :
    (declarationWords.any fun word => word.toList.isPrefixOf (Text.trimStart line).toList) = true ↔
      LooksLikeDeclaration line := by
  simp only [LooksLikeDeclaration, List.any_eq_true, List.isPrefixOf_iff_prefix]

/-- **The last line that looks like a declaration is blamed.** -/
theorem enclosingDeclaration?_eq_some_iff {before line : String} :
    enclosingDeclaration? before = some line ↔
      Text.IsLastLine LooksLikeDeclaration before line := by
  unfold enclosingDeclaration?
  rw [List.findSome?_map, List.findSome?_eq_some_iff]
  constructor
  · rintro ⟨later, found, earlier, hlines, hfound, hlater⟩
    rw [List.reverse_eq_iff, List.reverse_append, List.reverse_cons, List.append_assoc] at hlines
    dsimp only [Function.comp_apply] at hfound hlater
    split at hfound
    · rename_i hlooks
      refine ⟨_, found, _, hlines, any_isPrefixOf_iff.mp hlooks, fun other hmem hother => ?_,
        ?_⟩
      · have hnone := hlater other (List.mem_reverse.mp hmem)
        rw [if_pos (any_isPrefixOf_iff.mpr hother)] at hnone
        cases hnone
      · rw [← Option.some.inj hfound, Text.trimEnd_trimStart]
    · cases hfound
  · rintro ⟨earlier, found, later, hlines, hfound, hlater, rfl⟩
    refine ⟨later.reverse, found, earlier.reverse, ?_, ?_, fun other hmem => ?_⟩
    · rw [hlines, List.reverse_append, List.reverse_cons, List.append_assoc]
      rfl
    · dsimp only [Function.comp_apply]
      rw [if_pos (any_isPrefixOf_iff.mpr hfound), Text.trimEnd_trimStart]
    · have hother := hlater other (List.mem_reverse.mp hmem)
      exact if_neg fun hlooks => hother (any_isPrefixOf_iff.mp hlooks)

theorem Text.IsLastLine.isOneLine {p : String → Prop} {text line : String}
    (h : IsLastLine p text line) : IsOneLine line := by
  obtain ⟨earlier, found, later, hlines, -, -, rfl⟩ := h
  have hmem : found ∈ lines text := hlines ▸ List.mem_append_right _ List.mem_cons_self
  exact (isOneLine_of_mem_lines hmem).trim

/-- The last line with one of two properties is the last one with the property that it has. -/
theorem Text.IsLastLine.of_or {p q r : String → Prop} {text line : String}
    (h : IsLastLine p text line) (hor : ∀ one, p one ↔ q one ∨ r one) :
    IsLastLine q text line ∨ IsLastLine r text line := by
  obtain ⟨earlier, found, later, hlines, hfound, hlater, rfl⟩ := h
  rcases (hor found).mp hfound with hfound | hfound
  · exact .inl ⟨earlier, found, later, hlines, hfound,
      fun other hmem hother => hlater other hmem ((hor other).mpr (.inl hother)), rfl⟩
  · exact .inr ⟨earlier, found, later, hlines, hfound,
      fun other hmem hother => hlater other hmem ((hor other).mpr (.inr hother)), rfl⟩

/-! ## 3. The lines of a report -/

theorem isOneLine_label (rule : Rule) : Text.IsOneLine rule.label := by
  cases rule <;> decide

theorem isOneLine_describe (rule : Rule) : Text.IsOneLine rule.describe := by
  cases rule <;> decide +kernel

/-- Blanks, or the digits of a number, leave a line without the letter that a line of blame begins
    with. -/
theorem head?_append_ne {margin text : String} (hmargin : ∀ c ∈ margin.toList, c ≠ 'w')
    (htext : text.toList.head? ≠ some 'w') : (margin ++ text).toList.head? ≠ some 'w' := by
  rw [String.toList_append]
  cases hchars : margin.toList with
  | nil => exact htext
  | cons c rest =>
    rw [hchars] at hmargin
    exact fun h => hmargin c List.mem_cons_self (Option.some.inj h)

/-- The line that blames a declaration. -/
def blame (declaration : String) : String :=
  "while parsing the declaration \x60" ++ declaration ++ "\x60"

namespace Rejection

variable (rejection : Rejection)

/-- The lines of a report before one that blames a declaration. -/
def plainLines : List String :=
  let number := toString rejection.lineNumber
  let margin := String.ofList (List.replicate number.length ' ')
  [margin ++ "--> " ++ number ++ ":" ++ toString rejection.column,
   margin ++ " |",
   number ++ " | " ++ String.ofList rejection.shownLine,
   margin ++ " | " ++ rejection.underline,
   margin ++ " |",
   margin ++ " = " ++ rejection.summary] ++
    if rejection.expected.isEmpty then []
    else ["expected " ++ " or ".intercalate (rejection.expected.map Rule.describe)]

/-- The lines of a report. -/
def lines : List String :=
  rejection.plainLines ++
    (enclosingDeclaration? (String.ofList rejection.before)).toList.map blame

/-- **A report is its lines**, with line ends between them. -/
theorem toList_report :
    rejection.report.toList = ['\n'].intercalate (rejection.lines.map String.toList) := by
  have hexpected : rejection.expected.isEmpty = true ∨ rejection.expected.isEmpty = false := by
    cases rejection.expected.isEmpty <;> simp
  unfold report lines plainLines excerpt blame
  cases enclosingDeclaration? (String.ofList rejection.before) <;>
    rcases hexpected with hexpected | hexpected <;>
    simp [hexpected, List.intercalate_cons_cons]

theorem isOneLine_enumerate : ∀ {names : List String}, (∀ name ∈ names, Text.IsOneLine name) →
    Text.IsOneLine (enumerate names)
  | [], _ => by decide
  | [a], h => h a List.mem_cons_self
  | [a, b], h =>
    ((h a List.mem_cons_self).append (by decide)).append
      (h b (List.mem_cons_of_mem _ List.mem_cons_self))
  | a :: b :: c :: rest, h => by
    unfold enumerate
    refine ((Text.isOneLine_intercalate (by decide) fun name hmem =>
      h name (List.dropLast_subset _ hmem)).append (by decide)).append ?_
    have hlast := List.getLast_mem (List.cons_ne_nil a (b :: c :: rest))
    rw [List.getLastD_eq_getLast?, List.getLast?_eq_some_getLast (List.cons_ne_nil _ _)]
    exact h _ hlast

theorem isOneLine_summary : Text.IsOneLine rejection.summary := by
  have hlabels : ∀ rules : List Rule, Text.IsOneLine (enumerate (rules.map Rule.label)) :=
    fun rules => isOneLine_enumerate fun name hmem => by
      obtain ⟨rule, -, rfl⟩ := List.mem_map.mp hmem
      exact isOneLine_label rule
  have hexpected := (show Text.IsOneLine "expected " by decide).append (hlabels rejection.expected)
  have hunexpected :=
    (show Text.IsOneLine "unexpected " by decide).append (hlabels rejection.unexpected)
  unfold summary
  dsimp only
  split
  · decide
  · exact hexpected
  · exact hunexpected
  · exact (hunexpected.append (by decide)).append hexpected

theorem isOneLine_shownLine : Text.IsOneLine (String.ofList rejection.shownLine) := by
  have hshown : ∀ c, showLineEnd c ≠ '\n' := by
    intro c
    unfold showLineEnd
    split
    · decide
    · decide
    · assumption
  refine Text.isOneLine_ofList fun hmem => ?_
  unfold shownLine at hmem
  split at hmem
  · obtain ⟨c, -, hc⟩ := List.mem_map.mp hmem
    exact hshown c hc
  · obtain ⟨c, -, hc⟩ := List.mem_map.mp hmem
    exact hshown c hc
  · have hkept := (List.mem_filter.mp hmem).2
    revert hkept
    decide

theorem isOneLine_underline : Text.IsOneLine rejection.underline := by
  refine Text.IsOneLine.append (Text.isOneLine_ofList fun hmem => ?_) (by decide)
  obtain ⟨c, -, hc⟩ := List.mem_map.mp hmem
  split at hc <;> exact absurd hc (by decide)

theorem plainLines_spec : ∀ line ∈ rejection.plainLines,
    Text.IsOneLine line ∧ line.toList.head? ≠ some 'w' := by
  have hnumber := Text.isOneLine_toString rejection.lineNumber
  have hdigits : ∀ c ∈ (toString rejection.lineNumber).toList, c ≠ 'w' := by
    rintro c hmem rfl
    exact absurd (Text.isDigit_of_mem_toString hmem) (by decide)
  have hblanks : ∀ c ∈ List.replicate (toString rejection.lineNumber).length ' ', c = ' ' :=
    fun c hmem => List.eq_of_mem_replicate hmem
  unfold plainLines
  dsimp only
  generalize toString rejection.lineNumber = number at hnumber hdigits hblanks ⊢
  generalize List.replicate number.length ' ' = blanks at hblanks ⊢
  have hmargin : Text.IsOneLine (String.ofList blanks) := Text.isOneLine_ofList fun hmem =>
    absurd (hblanks _ hmem) (by decide)
  have hne : ∀ c ∈ (String.ofList blanks).toList, c ≠ 'w' := by
    rw [String.toList_ofList]
    rintro c hmem rfl
    exact absurd (hblanks _ hmem) (by decide)
  have hline : ∀ {text : String}, Text.IsOneLine text → text.toList.head? ≠ some 'w' →
      Text.IsOneLine (String.ofList blanks ++ text) ∧
        (String.ofList blanks ++ text).toList.head? ≠ some 'w' :=
    fun htext hhead => ⟨hmargin.append htext, head?_append_ne hne hhead⟩
  refine List.forall_mem_append.mpr ⟨?_, ?_⟩
  · simp only [List.forall_mem_cons, String.append_assoc]
    refine ⟨hline ?_ (by simp), hline (by decide) (by simp),
      ⟨?_, head?_append_ne hdigits (by simp)⟩, hline ?_ (by simp), hline (by decide) (by simp),
      hline ?_ (by simp), nofun⟩
    · exact (show Text.IsOneLine "--> " by decide).append
        (hnumber.append ((show Text.IsOneLine ":" by decide).append (Text.isOneLine_toString _)))
    · exact hnumber.append
        ((show Text.IsOneLine " | " by decide).append rejection.isOneLine_shownLine)
    · exact (show Text.IsOneLine " | " by decide).append rejection.isOneLine_underline
    · exact (show Text.IsOneLine " = " by decide).append rejection.isOneLine_summary
  · split
    · nofun
    · refine List.forall_mem_singleton.mpr ⟨?_, by simp⟩
      refine (show Text.IsOneLine "expected " by decide).append
        (Text.isOneLine_intercalate (by decide) fun text hmem => ?_)
      obtain ⟨rule, -, rfl⟩ := List.mem_map.mp hmem
      exact isOneLine_describe rule

theorem lines_spec : ∀ cs ∈ rejection.lines.map String.toList, '\n' ∉ cs := by
  intro cs hmem
  obtain ⟨line, hline, rfl⟩ := List.mem_map.mp hmem
  rcases List.mem_append.mp hline with hline | hline
  · exact (rejection.plainLines_spec line hline).1
  · obtain ⟨declaration, hdeclaration, rfl⟩ := List.mem_map.mp hline
    have hone :=
      (enclosingDeclaration?_eq_some_iff.mp (Option.mem_toList.mp hdeclaration)).isOneLine
    exact ((show Text.IsOneLine "while parsing the declaration \x60" by decide).append hone).append
      (show Text.IsOneLine "\x60" by decide)

theorem lines_ne_nil : rejection.lines ≠ [] := List.cons_ne_nil _ _

theorem exists_blame_eq_cons (declaration : String) :
    ∃ rest, (blame declaration).toList = 'w' :: rest := by
  refine List.head?_eq_some_iff.mp ?_
  unfold blame
  rw [String.toList_append, String.toList_append]
  rfl

theorem blame_injective {first second : String}
    (h : (blame first).toList = (blame second).toList) : first = second := by
  unfold blame at h
  rw [String.toList_append, String.toList_append, String.toList_append,
    String.toList_append] at h
  exact String.toList_inj.mp (List.append_cancel_left (List.append_cancel_right h))

/-- **Only the last line of a report blames a declaration**, and it says which. -/
theorem enclosingDeclaration?_of_report {message line : String}
    (h : rejection.report = message ++ "\n" ++ blame line) :
    enclosingDeclaration? (String.ofList rejection.before) = some line := by
  obtain ⟨rest, hrest⟩ : ∃ rest, (blame line).toList = 'w' :: rest := exists_blame_eq_cons line
  obtain ⟨first, more, hblame⟩ := Text.exists_splitOn_cons (show 'w' ≠ '\n' by decide) rest
  have hsplit : rejection.lines.map String.toList =
      message.toList.splitOn '\n' ++ ('w' :: first) :: more := by
    have hlines := List.splitOn_intercalate '\n' rejection.lines_spec
      (List.map_eq_nil_iff.not.mpr rejection.lines_ne_nil)
    rw [← hlines, ← rejection.toList_report, h, ← hblame, ← hrest, String.toList_append,
      String.toList_append, List.append_assoc]
    exact List.splitOn_append_cons_self ..
  have hplain : 'w' :: first ∉ rejection.plainLines.map String.toList := by
    intro hmem
    obtain ⟨text, htext, hchars⟩ := List.mem_map.mp hmem
    exact (rejection.plainLines_spec text htext).2 (congrArg List.head? hchars)
  rw [lines, List.map_append] at hsplit
  obtain ⟨between, hlast⟩ := Text.exists_append_of_not_mem hsplit hplain
  cases henclosing : enclosingDeclaration? (String.ofList rejection.before) with
  | none =>
    rw [henclosing] at hlast
    exact absurd hlast.symm (List.append_ne_nil_of_right_ne_nil _ (List.cons_ne_nil _ _))
  | some found =>
    rw [henclosing] at hlast
    rcases List.singleton_eq_append_iff.mp hlast with ⟨-, hlast⟩ | ⟨-, hlast⟩
    · have hwhole : (blame line).toList = (blame found).toList := by
        have hjoined : ['\n'].intercalate (('w' :: rest).splitOn '\n') = 'w' :: rest :=
          List.intercalate_splitOn '\n'
        rw [hblame, hlast] at hjoined
        exact hrest.trans (hjoined.symm.trans List.intercalate_singleton)
      rw [blame_injective hwhole]
    · cases hlast

end Rejection

/-! ## 4. What is said about the line -/

/-- The text before the place of an error. -/
def Diagnosis.textBefore (diagnosis : Diagnosis) (text : String) : String :=
  String.ofList (Cursor.takeBytes diagnosis.offset text.toList)

/-- **A rejection is blamed on the last line that looks like a declaration.** That line is also the
    last one that opens a declaration, unless a longer word begins it. -/
theorem diagnose_blames {rule : Rule} {text message line : String}
    (h : (diagnose rule text .rejected).detail = message ++ "\n" ++ blame line) :
    Text.IsLastLine LooksLikeDeclaration ((diagnose rule text .rejected).textBefore text) line ∧
      (Text.IsLastLine OpensDeclaration ((diagnose rule text .rejected).textBefore text) line ∨
        Text.IsLastLine BeginsLongerWord
          ((diagnose rule text .rejected).textBefore text) line) := by
  have hlast : Text.IsLastLine LooksLikeDeclaration
      ((diagnose rule text .rejected).textBefore text) line :=
    enclosingDeclaration?_eq_some_iff.mp
      ((Rejection.ofText rule text).enclosingDeclaration?_of_report h)
  exact ⟨hlast, hlast.of_or fun _ => looksLikeDeclaration_iff⟩

/-- A struct whose field lacks a type. -/
def listText : String :=
  "package p\n\ntype List struct \x7b\n\tnext ]\n\x7d\n"

theorem diagnose_blames_list :
    ∃ message,
      (diagnose .sourceFile listText .rejected).detail =
        message ++ "\n" ++ blame "type List struct \x7b" ∧
      Text.IsLastLine LooksLikeDeclaration
        ((diagnose .sourceFile listText .rejected).textBefore listText)
        "type List struct \x7b" := by
  have hdetail : (diagnose .sourceFile listText .rejected).detail =
      " --> 4:7\n  |\n4 | \tnext ]\n  | \t     ^---\n  |\n" ++
        "  = expected type_expr or field_tag\n" ++
        "expected a type (like []T, map[K]V or chan T) or field tag" ++ "\n" ++
        blame "type List struct \x7b" := by
    decide +kernel
  exact ⟨_, hdetail, (diagnose_blames hdetail).1⟩

/-- The same, after a field whose name begins with the letters of a word that opens a
    declaration. -/
def nodeText : String :=
  "package p\n\ntype Node struct \x7b\n\ttypeName string\n\tnext ]\n\x7d\n"

/-- The report blames the field, though the declaration around the place is that of the struct. -/
theorem diagnose_blames_field :
    SourceFile.parse nodeText none = .error .rejected ∧
    (∃ message, (diagnose .sourceFile nodeText .rejected).detail =
      message ++ "\n" ++ blame "typeName string") ∧
    ¬ Text.IsLastLine OpensDeclaration
      ((diagnose .sourceFile nodeText .rejected).textBefore nodeText) "typeName string" ∧
    Text.IsLastLine OpensDeclaration
      ((diagnose .sourceFile nodeText .rejected).textBefore nodeText)
      "type Node struct \x7b" := by
  have hdetail : (diagnose .sourceFile nodeText .rejected).detail =
      " --> 5:7\n  |\n5 | \tnext ]\n  | \t     ^---\n  |\n" ++
        "  = expected type_expr or field_tag\n" ++
        "expected a type (like []T, map[K]V or chan T) or field tag" ++ "\n" ++
        blame "typeName string" := by
    decide +kernel
  have hlines : Text.lines ((diagnose .sourceFile nodeText .rejected).textBefore nodeText) =
      ["package p", "", "type Node struct \x7b", "\ttypeName string", "\tnext "] := by
    decide +kernel
  refine ⟨by decide +kernel, ⟨_, hdetail⟩, ?_, ?_⟩
  · rintro ⟨earlier, found, later, hfound, hopens, -, htrim⟩
    have hmem : found ∈ earlier ++ found :: later := List.mem_append_right _ List.mem_cons_self
    rw [← hfound, hlines] at hmem
    have hnone : ∀ other ∈ ["package p", "", "type Node struct \x7b", "\ttypeName string",
        "\tnext "], "typeName string" = Text.trim other → ¬ OpensDeclaration other := by
      decide +kernel
    exact hnone found hmem htrim hopens
  · exact ⟨["package p", ""], "type Node struct \x7b", ["\ttypeName string", "\tnext "], hlines,
      by decide +kernel, by decide +kernel, by decide +kernel⟩

end GoStencil
