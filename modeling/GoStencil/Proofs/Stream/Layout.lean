import GoStencil.Proofs.Stream.Segments
import GoStencil.Proofs.Stream.Tokens
import Mathlib.Data.List.TakeWhile

/-!
# Layout and the instance of a stream

Which identifiers of a stream are replaced depends on the tokens around them, and on white space and
comments only in three places: after the dot of a selector, beside an identifier before a colon, and
between the word `case` and the last entry of its list.

* `Occurrence.isReplaced`: whether an identifier is replaced. `Occurrence.instantiateSegment_eq`
  says that the instance does so.
* `Occurrence.isSelected`, `Occurrence.inCaseList`, `Occurrence.isKey`: what is told from the
  tokens.
* `Occurrence.isOnCaseLine`: what is told from lines instead.
* `Occurrence.isKept_eq`: without layout in these places the tokens decide.
* `Body.replaced_eq`: then streams of the same tokens have the same identifiers replaced, and an
  identifier in a list of cases is one of them.
* `Body.layout_matters`: with it they need not.
-/

namespace GoStencil

/-! ## 1. What stands beside an identifier -/

/-- The text that some segments begin with. -/
def adjacentText : List Segment → String
  | .text text :: _ => text
  | _ => ""

namespace Occurrence

/-- The text right before an identifier. -/
def textBefore (occurrence : Occurrence) : String :=
  adjacentText occurrence.before

/-- The text right after an identifier. -/
def textAfter (occurrence : Occurrence) : String :=
  adjacentText occurrence.after

/-- Whether the token before an identifier is a dot. -/
def isSelected (occurrence : Occurrence) : Bool :=
  (tokens occurrence.textBefore).getLast? == some ['.']

/-- Whether the token after an identifier is a colon. -/
def precedesColon (occurrence : Occurrence) : Bool :=
  (tokens occurrence.textAfter).head? == some [':']

/-- Whether the token before an identifier is an opening brace. -/
def followsBrace (occurrence : Occurrence) : Bool :=
  (tokens occurrence.textBefore).getLast? == some ['\x7b']

/-- Whether the token before an identifier is a comma. -/
def followsComma (occurrence : Occurrence) : Bool :=
  (tokens occurrence.textBefore).getLast? == some [',']

/-- Whether an identifier is replaced. -/
def isReplaced (subst : Substitution) (occurrence : Occurrence) : Bool :=
  subst.bindsName occurrence.ident && !occurrence.isKept

end Occurrence

/-- Whether a text begins with a comment, perhaps after white space. -/
def beginsWithComment (text : String) : Bool :=
  ((parts text.toList).dropWhile isBlankPart).head?.any isComment

/-- Whether a text ends with a comment, perhaps before white space. -/
def endsWithComment (text : String) : Bool :=
  ((parts text.toList).reverse.dropWhile isBlankPart).head?.any isComment

/-- An instance has something else in place of an identifier if and only if that is replaced. -/
theorem Occurrence.instantiateSegment_eq (subst : Substitution) (occurrence : Occurrence) :
    instantiateSegment subst occurrence.before (.ident occurrence.ident) occurrence.after =
      match subst.getName? occurrence.ident, occurrence.isReplaced subst with
      | some bound, true => boundSegment occurrence.before bound
      | _, _ => .ident occurrence.ident := by
  simp only [instantiateSegment, isReplaced, isKept, Substitution.bindsName]
  cases subst.getName? occurrence.ident with
  | none => rfl
  | some bound =>
    cases followsSelector occurrence.before || isCompositeKey occurrence.before occurrence.after <;>
      rfl

/-! ## 2. Lists of cases -/

/-- The tokens of a segment. -/
def Segment.toTokens : Segment → List (List Char)
  | .ident word => [word.toList]
  | .text source => tokens source

/-- Where lists of cases are open after a token: for each open bracket whether one is open directly
    inside it, the innermost bracket first, and last whether one is open outside all brackets. The
    word `case` opens a list, and a colon ends it. -/
def openLists (lists : List Bool) (token : List Char) : List Bool :=
  if token = "case".toList then true :: lists.tail
  else if token = [':'] then false :: lists.tail
  else if token ∈ [['('], ['['], ['\x7b']] then false :: lists
  else if token ∈ [[')'], [']'], ['\x7d']] then lists.tail
  else lists

/-- Where lists of cases are open after some segments, given last first. -/
def openListsAfter (before : List Segment) : List Bool :=
  before.foldr (fun segment lists => segment.toTokens.foldl openLists lists) [false]

/-- Whether a segment holds an opening brace as a token. -/
def Segment.opensBrace : Segment → Bool
  | .ident _ => false
  | .text source => (tokens source).contains ['\x7b']

/-- Whether a segment holds a line end, a semicolon or an opening brace. -/
def Segment.breaksLine : Segment → Bool
  | .ident _ => false
  | .text source => source.toList.any fun c => c == '\n' || c == ';' || c == '\x7b'

namespace Occurrence

/-- Whether an identifier stands in a list of cases: directly inside the same brackets the word
    `case` stands before it, and no colon stands between them. -/
def inCaseList (occurrence : Occurrence) : Bool :=
  (openListsAfter occurrence.before).head? == some true

/-- Whether the word `case` stands before an identifier with no opening brace between them. -/
def followsCase (occurrence : Occurrence) : Bool :=
  (occurrence.before.takeWhile fun segment => !segment.opensBrace).contains (.ident "case")

/-- Whether the word `case` stands before an identifier on its line, where a semicolon or an opening
    brace ends a line as well. -/
def isOnCaseLine (occurrence : Occurrence) : Bool :=
  (occurrence.before.takeWhile fun segment => !segment.breaksLine).contains (.ident "case")

/-- Whether an identifier begins an element and a colon follows. -/
def isLabel (occurrence : Occurrence) : Bool :=
  occurrence.precedesColon && (occurrence.followsBrace || occurrence.followsComma)

/-- Whether an identifier stands as a key of a composite literal does: before a colon, at the start
    of an element, and not in a list of cases. -/
def isKey (occurrence : Occurrence) : Bool :=
  occurrence.isLabel && !occurrence.inCaseList

/-- Whether layout hides nothing that stands beside an identifier: a dot before it is the end of the
    text, it is not in a comment, and it does not stand between comments before a colon. A list of
    cases stands on one line up to the last of several, and without braces. A key needs nothing of
    the kind unless a `case` stands before it inside its literal, in the body of a function: that is
    on another line. -/
structure StandsClear (occurrence : Occurrence) : Prop where
  dot : occurrence.isSelected = true → Text.endsWith occurrence.textBefore "." = true ∧
    Text.endsWith occurrence.textBefore "..." = false
  line : (parts occurrence.textBefore.toList).getLast?.any isLineComment = false
  colon : occurrence.precedesColon = true → occurrence.isOnCaseLine = false →
    endsWithComment occurrence.textBefore = false ∧ beginsWithComment occurrence.textAfter = false
  list : occurrence.precedesColon = true → occurrence.followsComma = true →
    occurrence.inCaseList = true → occurrence.isOnCaseLine = true
  key : occurrence.precedesColon = true → occurrence.followsComma = true →
    occurrence.inCaseList = false → occurrence.followsCase = true → occurrence.isOnCaseLine = false

instance (occurrence : Occurrence) : Decidable occurrence.StandsClear :=
  decidable_of_iff
    ((occurrence.isSelected = true → Text.endsWith occurrence.textBefore "." = true ∧
        Text.endsWith occurrence.textBefore "..." = false) ∧
      (parts occurrence.textBefore.toList).getLast?.any isLineComment = false ∧
      (occurrence.precedesColon = true → occurrence.isOnCaseLine = false →
        endsWithComment occurrence.textBefore = false ∧
          beginsWithComment occurrence.textAfter = false) ∧
      (occurrence.precedesColon = true → occurrence.followsComma = true →
        occurrence.inCaseList = true → occurrence.isOnCaseLine = true) ∧
      (occurrence.precedesColon = true → occurrence.followsComma = true →
        occurrence.inCaseList = false → occurrence.followsCase = true →
          occurrence.isOnCaseLine = false))
    ⟨fun ⟨dot, line, colon, list, key⟩ => ⟨dot, line, colon, list, key⟩,
      fun ⟨dot, line, colon, list, key⟩ => ⟨dot, line, colon, list, key⟩⟩

end Occurrence

/-- The walk back from an identifier finds a word `case` on its line. -/
theorem insideCaseClause_eq (before : List Segment) :
    insideCaseClause before =
      (before.takeWhile fun segment => !segment.breaksLine).contains (.ident "case") := by
  induction before with
  | nil => rfl
  | cons segment before ih =>
    cases segment with
    | ident word =>
      have hword : (Segment.ident "case" == .ident word) = (word == "case") := by
        rw [Bool.eq_iff_iff, beq_iff_eq, beq_iff_eq, Segment.ident.injEq]
        exact eq_comm
      rw [insideCaseClause, ih, List.takeWhile_cons_of_pos (by rfl), List.contains_cons, hword]
    | text text =>
      have hwalk : insideCaseClause (.text text :: before) =
          (!(Segment.text text).breaksLine && insideCaseClause before) := rfl
      rw [hwalk, ih]
      cases hbreaks : (Segment.text text).breaksLine with
      | true =>
        rw [List.takeWhile_cons_of_neg (by simp [hbreaks])]
        rfl
      | false =>
        rw [List.takeWhile_cons_of_pos (by simp [hbreaks])]
        rfl

theorem Segment.breaksLine_of_opensBrace {segment : Segment} (h : segment.opensBrace = true) :
    segment.breaksLine = true := by
  cases segment with
  | ident _ => cases h
  | text source =>
    have htoken : ['\x7b'] ∈ tokens source := List.contains_iff_mem.mp h
    have hbrace : '\x7b' ∈ source.toList := by
      rw [← flatten_parts source.toList]
      exact List.mem_flatten.mpr ⟨_, (List.mem_filter.mp htoken).1, List.mem_cons_self⟩
    exact List.any_eq_true.mpr ⟨_, hbrace, rfl⟩

namespace Occurrence

variable {occurrence : Occurrence}

/-- What stands on one line has no opening brace in it. -/
theorem followsCase_of_isOnCaseLine (h : occurrence.isOnCaseLine = true) :
    occurrence.followsCase = true := by
  have hboth : (fun segment : Segment => decide ((!segment.breaksLine) = true ∧
      (!segment.opensBrace) = true)) = fun segment => !segment.breaksLine := by
    funext segment
    cases hopens : segment.opensBrace with
    | false => simp
    | true => simp [Segment.breaksLine_of_opensBrace hopens]
  have hstart : (occurrence.before.takeWhile fun segment => !segment.breaksLine) <+:
      occurrence.before.takeWhile fun segment => !segment.opensBrace := by
    rw [← hboth, ← List.takeWhile_takeWhile]
    exact List.takeWhile_prefix _
  exact List.contains_iff_mem.mpr (hstart.subset (List.contains_iff_mem.mp h))

/-- Behind an opening brace no list of cases is open, and none is on the line. -/
theorem of_followsBrace (h : occurrence.followsBrace = true) :
    occurrence.inCaseList = false ∧ occurrence.isOnCaseLine = false := by
  have hlast : (tokens occurrence.textBefore).getLast? = some ['\x7b'] := eq_of_beq h
  obtain ⟨before, ident, after⟩ := occurrence
  have hempty : (tokens "").getLast? ≠ some ['\x7b'] := by decide +kernel
  match before with
  | [] | .ident _ :: _ => exact absurd hlast hempty
  | .text text :: before =>
    constructor
    · obtain ⟨init, hinit⟩ := List.getLast?_eq_some_iff.mp hlast
      have hopen : openListsAfter (.text text :: before) =
          (tokens text).foldl openLists (openListsAfter before) := rfl
      rw [inCaseList, hopen, show tokens text = init ++ [['\x7b']] from hinit, List.foldl_append]
      rfl
    · have hopens : (Segment.text text).opensBrace = true :=
        List.contains_iff_mem.mpr (List.mem_of_getLast? hlast)
      rw [isOnCaseLine, List.takeWhile_cons_of_neg
        (by simp [Segment.breaksLine_of_opensBrace hopens])]
      rfl

end Occurrence

/-! ## 3. After an identifier -/

theorem parts_cons (c : Char) (rest : List Char) :
    parts (c :: rest) =
      (c :: rest.take (partLength c rest)) :: parts (rest.drop (partLength c rest)) := by
  rw [parts]

theorem partLength_colon (rest : List Char) :
    partLength ':' rest = if rest.head? = some '=' then 1 else 0 := by
  have htail : tailLength ':' rest = 0 := by
    have hstart : Text.isIdentifierStart ':' = false := by decide
    simp [tailLength, hstart]
  rw [partLength, if_pos htail, operatorLength]
  cases rest with
  | nil => rfl
  | cons d rest =>
    by_cases hd : d = '='
    · simp [hd, longOperators, List.isPrefixOf]
    · simp [hd, longOperators, List.isPrefixOf, Ne.symm hd]

/-- White space at the start of a text is white space before its parts. -/
theorem dropWhile_parts (cs : List Char) :
    (parts cs).dropWhile isBlankPart = parts (Text.dropBlank cs) := by
  induction cs with
  | nil => simp [parts, Text.dropBlank]
  | cons c rest ih =>
    cases hblank : Text.isBlank c with
    | true =>
      rw [parts_cons, partLength_of_isBlank hblank, List.take_zero, List.drop_zero,
        List.dropWhile_cons_of_pos (by exact hblank), ih]
      simp [Text.dropBlank, hblank]
    | false =>
      have hdrop : Text.dropBlank (c :: rest) = c :: rest := by simp [Text.dropBlank, hblank]
      rw [hdrop, parts_cons, List.dropWhile_cons_of_neg (by simp [isBlankPart, hblank])]

/-- White space is no token. -/
theorem filter_isToken_dropWhile (ps : List (List Char)) :
    (ps.dropWhile isBlankPart).filter isToken = ps.filter isToken := by
  induction ps with
  | nil => rfl
  | cons part ps ih =>
    cases hblank : isBlankPart part with
    | true =>
      rw [List.dropWhile_cons_of_pos hblank, ih,
        List.filter_cons_of_neg (by simp [isToken, hblank])]
    | false => rw [List.dropWhile_cons_of_neg (by simp [hblank])]

theorem isBlank_of_mem_head?_dropBlank {cs : List Char} :
    ∀ c ∈ (Text.dropBlank cs).head?, Text.isBlank c = false := by
  intro c hc
  have hnot := List.head?_dropWhile_not Text.isBlank cs
  rw [Text.dropBlank, Option.mem_def] at hc
  rwa [hc] at hnot

/-- A colon is a token by itself, unless it begins `:=`. -/
theorem head?_tokens_colon (after : List Char) :
    (((parts (':' :: after)).filter isToken).head? == some [':']) = (after.head? != some '=') := by
  have hcolon : isToken [':'] = true := by decide
  have hdefine : isToken [':', '='] = true := by decide
  rw [parts_cons, partLength_colon]
  cases after with
  | nil => simp [hcolon]
  | cons d after =>
    by_cases hd : d = '='
    · simp [hd, hdefine]
    · simp [hd, hcolon]

/-- Where no colon comes first, none is the first token, if no comment stands before it. -/
theorem head?_tokens_ne_colon {c : Char} {after : List Char} (hblank : Text.isBlank c = false)
    (hc : c ≠ ':') (hclear : ((parts (c :: after)).filter isToken).head? = some [':'] →
      (parts (c :: after)).head?.any isComment = false) :
    ((parts (c :: after)).filter isToken).head? ≠ some [':'] := by
  intro hhead
  have hclear := hclear hhead
  have hfirst : isBlankPart (c :: after.take (partLength c after)) = false := hblank
  rw [parts_cons] at hhead hclear
  rw [List.head?_cons, Option.any_some] at hclear
  simp [isToken, hfirst, hclear, hc] at hhead

/-- **A colon after an identifier is seen**, unless a comment stands before it. -/
theorem precedesColon_eq {text : String} (rest : List Segment)
    (hclear : (tokens text).head? = some [':'] → beginsWithComment text = false) :
    precedesColon (.text text :: rest) = ((tokens text).head? == some [':']) := by
  rw [tokens, ← filter_isToken_dropWhile, beginsWithComment, dropWhile_parts] at *
  have hstart : ∀ c ∈ (Text.dropBlank text.toList).head?, Text.isBlank c = false :=
    isBlank_of_mem_head?_dropBlank
  simp only [precedesColon]
  generalize Text.dropBlank text.toList = cs at *
  cases cs with
  | nil => simp [parts]
  | cons c after =>
    by_cases hc : c = ':'
    · rw [hc, head?_tokens_colon]
      cases after with
      | nil => rfl
      | cons d after => by_cases hd : d = '=' <;> simp [hd]
    · have hnone := head?_tokens_ne_colon (hstart c rfl) hc hclear
      rw [beq_eq_false_iff_ne.mpr hnone]
      split
      · rfl
      · exact absurd (List.cons.inj ‹_›).1 hc
      · rfl

/-! ## 4. Before an identifier -/

/-- A part of white space is one character. -/
theorem eq_of_isBlankPart {part cs : List Char} (hmem : part ∈ parts cs)
    (h : isBlankPart part = true) : ∃ c, part = [c] ∧ Text.isBlank c = true := by
  obtain ⟨c, rest, rfl⟩ := exists_of_mem_parts hmem
  have hblank : Text.isBlank c = true := h
  exact ⟨c, by rw [partLength_of_isBlank hblank, List.take_zero], hblank⟩

/-- The last token of a text is found from its end. -/
theorem getLast?_tokens (text : String) :
    (tokens text).getLast? =
      (((parts text.toList).reverse.dropWhile isBlankPart).filter isToken).head? := by
  rw [filter_isToken_dropWhile, List.filter_reverse, List.head?_reverse, tokens]

/-- White space at the end of a text is white space after its parts. -/
theorem dropBlank_reverse (text : String) :
    Text.dropBlank text.toList.reverse =
      Text.dropBlank
        (((parts text.toList).reverse.dropWhile isBlankPart).map List.reverse).flatten := by
  have hall : ∀ ps : List (List Char), (∀ part ∈ ps, part ∈ parts text.toList) →
      Text.dropBlank (ps.map List.reverse).flatten =
        Text.dropBlank ((ps.dropWhile isBlankPart).map List.reverse).flatten := by
    intro ps hps
    induction ps with
    | nil => rfl
    | cons part ps ih =>
      obtain ⟨hpart, hrest⟩ := List.forall_mem_cons.mp hps
      cases hblank : isBlankPart part with
      | true =>
        obtain ⟨c, rfl, hc⟩ := eq_of_isBlankPart hpart hblank
        rw [List.dropWhile_cons_of_pos hblank, ← ih hrest]
        simp [Text.dropBlank, hc]
      | false => rw [List.dropWhile_cons_of_neg (by simp [hblank])]
  rw [← hall _ fun part hmem => List.mem_reverse.mp hmem, List.map_reverse, ← List.reverse_flatten,
    flatten_parts]

/-- **A brace or a comma before an identifier is seen**, unless a comment stands after it. -/
theorem opensElement_eq {text : String} (rest : List Segment)
    (hclear : endsWithComment text = false) :
    opensElement (.text text :: rest) =
      ((tokens text).getLast? == some ['\x7b'] || (tokens text).getLast? == some [',']) := by
  simp only [opensElement]
  rw [dropBlank_reverse, getLast?_tokens]
  rw [endsWithComment] at hclear
  have hstart := List.head?_dropWhile_not isBlankPart (parts text.toList).reverse
  have hmem : ∀ part ∈ (parts text.toList).reverse.dropWhile isBlankPart,
      part ∈ parts text.toList := fun part hpart =>
    List.mem_reverse.mp ((List.dropWhile_sublist _).subset hpart)
  cases hlast : (parts text.toList).reverse.dropWhile isBlankPart with
  | nil => rfl
  | cons part before =>
    rw [hlast] at hclear hstart hmem
    obtain ⟨c, after, hpart⟩ := exists_of_mem_parts (hmem part List.mem_cons_self)
    have htoken : isToken part = true := by simp_all [isToken]
    have hends := getLast_of_isToken (hpart ▸ htoken)
    rw [← hpart] at hends
    obtain ⟨init, d, hd⟩ := (List.eq_nil_or_concat part).resolve_left (by simp [hpart])
    obtain ⟨hblank, hmark, -⟩ := hends d (by simp [hd])
    have hreverse : Text.dropBlank ((part :: before).map List.reverse).flatten =
        d :: (init.reverse ++ (before.map List.reverse).flatten) := by
      simp [hd, Text.dropBlank, hblank]
    rw [hreverse, List.filter_cons_of_pos htoken, List.head?_cons]
    have hlast : part.getLast? = some d := by simp [hd]
    by_cases hcomma : d = ','
    · rw [hmark (by simp [hcomma]), hcomma]
      rfl
    by_cases hbrace : d = '\x7b'
    · rw [hmark (by simp [hbrace]), hbrace]
      rfl
    have hnotBrace : part ≠ ['\x7b'] := fun e => hbrace (by simpa [e] using hlast.symm)
    have hnotComma : part ≠ [','] := fun e => hcomma (by simpa [e] using hlast.symm)
    simp [hcomma, hbrace, hnotBrace, hnotComma]

/-- A text that ends with a dot, and not in a comment, ends with a token of one dot or three. -/
theorem lastToken_of_endsWith_dot {text : String} (hends : Text.endsWith text "." = true)
    (hline : (parts text.toList).getLast?.any isLineComment = false) :
    (tokens text).getLast? = some ['.'] ∨ Text.endsWith text "..." = true := by
  obtain ⟨front, hfront⟩ := List.isSuffixOf_iff_suffix.mp hends
  rcases List.eq_nil_or_concat (parts text.toList) with hnil | ⟨init, part, hparts⟩
  · have hflat := flatten_parts text.toList
    rw [hnil, ← hfront] at hflat
    simp at hflat
  have hmem : part ∈ parts text.toList := by simp [hparts]
  obtain ⟨c, after, hpart⟩ := exists_of_mem_parts hmem
  have htext : text.toList = init.flatten ++ part := by
    rw [← flatten_parts text.toList, hparts]
    simp
  have hlast : part.getLast? = some '.' := by
    have hwhole := congrArg List.getLast? (hfront.trans htext)
    rw [List.getLast?_append, List.getLast?_append, hpart, List.getLast?_cons] at hwhole
    rw [hpart, List.getLast?_cons]
    simpa using hwhole.symm
  have hblank : isBlankPart part = false := by
    refine Bool.eq_false_iff.mpr fun hblank => ?_
    obtain ⟨d, rfl, hd⟩ := eq_of_isBlankPart hmem hblank
    cases hlast
    revert hd
    decide
  have hcomment : isComment part = false := by
    refine Bool.eq_false_iff.mpr fun hcomment => ?_
    rw [hparts] at hline
    have hslash := getLast?_of_isComment (hpart ▸ hcomment) (hpart ▸ by simpa using hline)
    rw [← hpart, hlast] at hslash
    revert hslash
    decide
  have htoken : isToken part = true := by simp [isToken, hblank, hcomment]
  have hdotted := (getLast_of_isToken (hpart ▸ htoken) '.' (by rw [← hpart, hlast]; rfl)).2.2 rfl
  rw [← hpart] at hdotted
  rcases hdotted with hone | hthree
  · have hlastToken : (tokens text).getLast? = some part := by simp [tokens, hparts, htoken]
    exact .inl (by rw [hlastToken, hone])
  · right
    rw [Text.endsWith, htext, hthree]
    exact List.isSuffixOf_iff_suffix.mpr (List.suffix_append _ _)

/-- **A dot before an identifier selects it**, where it is the end of the text. -/
theorem followsSelector_eq {text : String} (rest : List Segment)
    (hdot : (tokens text).getLast? = some ['.'] →
      Text.endsWith text "." = true ∧ Text.endsWith text "..." = false)
    (hline : (parts text.toList).getLast?.any isLineComment = false) :
    followsSelector (.text text :: rest) = ((tokens text).getLast? == some ['.']) := by
  simp only [followsSelector]
  cases htoken : (tokens text).getLast? == some ['.'] with
  | true =>
    obtain ⟨hends, hdots⟩ := hdot (beq_iff_eq.mp htoken)
    rw [hends, hdots]
    rfl
  | false =>
    cases hends : Text.endsWith text "." with
    | false => rfl
    | true =>
      have hlast := lastToken_of_endsWith_dot hends hline
      rw [hlast.resolve_left (beq_eq_false_iff_ne.mp htoken)]
      rfl

/-! ## 5. Tokens decide -/

theorem followsSelector_adjacent (before : List Segment) :
    followsSelector before = followsSelector [.text (adjacentText before)] := by
  have hempty : followsSelector [.text ""] = false := by decide
  match before with
  | [] | .ident _ :: _ => exact hempty.symm
  | .text _ :: _ => rfl

theorem precedesColon_adjacent (after : List Segment) :
    precedesColon after = precedesColon [.text (adjacentText after)] := by
  have hempty : precedesColon [.text ""] = false := by decide
  match after with
  | [] | .ident _ :: _ => exact hempty.symm
  | .text _ :: _ => rfl

theorem opensElement_adjacent (before : List Segment) :
    opensElement before = opensElement [.text (adjacentText before)] := by
  have hempty : opensElement [.text ""] = false := by decide
  match before with
  | [] | .ident _ :: _ => exact hempty.symm
  | .text _ :: _ => rfl

namespace Occurrence

variable {occurrence : Occurrence}

/-- What is seen of the text around an identifier: the dot of a selector, and that it begins an
    element before a colon, but not on the line of a `case`. -/
theorem isKept_eq_line (h : occurrence.StandsClear) : occurrence.isKept =
    (occurrence.isSelected || (occurrence.isLabel && !occurrence.isOnCaseLine)) := by
  have hselector : followsSelector occurrence.before = occurrence.isSelected := by
    rw [followsSelector_adjacent]
    exact followsSelector_eq [] (fun hdot => h.dot (beq_iff_eq.mpr hdot)) h.line
  have hclause : insideCaseClause occurrence.before = occurrence.isOnCaseLine :=
    insideCaseClause_eq occurrence.before
  rw [isKept, hselector, isCompositeKey, hclause, isLabel]
  refine congrArg _ ?_
  cases hline : occurrence.isOnCaseLine with
  | true => simp
  | false =>
    rw [precedesColon_adjacent, opensElement_adjacent]
    cases hcolon : occurrence.precedesColon with
    | true =>
      obtain ⟨hends, hbegins⟩ := h.colon hcolon hline
      have hafter : GoStencil.precedesColon [.text (adjacentText occurrence.after)] =
          occurrence.precedesColon := precedesColon_eq [] fun _ => hbegins
      have hbefore : opensElement [.text (adjacentText occurrence.before)] =
          (occurrence.followsBrace || occurrence.followsComma) := opensElement_eq [] hends
      rw [hafter, hbefore, hcolon]
    | false =>
      have hafter : GoStencil.precedesColon [.text (adjacentText occurrence.after)] =
          occurrence.precedesColon :=
        precedesColon_eq [] fun hhead => absurd (beq_iff_eq.mpr hhead) (Bool.eq_false_iff.mp hcolon)
      rw [hafter, hcolon]
      rfl

/-- Where a label is clear, a list of cases and the line of a `case` are the same. -/
theorem StandsClear.inCaseList_eq (h : occurrence.StandsClear)
    (hlabel : occurrence.isLabel = true) : occurrence.inCaseList = occurrence.isOnCaseLine := by
  obtain ⟨hcolon, hopens⟩ := Bool.and_eq_true_iff.mp hlabel
  rcases Bool.or_eq_true_iff.mp hopens with hbrace | hcomma
  · obtain ⟨hlist, hline⟩ := of_followsBrace hbrace
    rw [hlist, hline]
  · cases hlist : occurrence.inCaseList with
    | true => exact (h.list hcolon hcomma hlist).symm
    | false =>
      cases hline : occurrence.isOnCaseLine with
      | false => rfl
      | true =>
        rw [h.key hcolon hcomma hlist (followsCase_of_isOnCaseLine hline)] at hline
        cases hline

/-- **The tokens around an identifier decide whether it is kept**, if layout hides none of them. -/
theorem isKept_eq (h : occurrence.StandsClear) :
    occurrence.isKept = (occurrence.isSelected || occurrence.isKey) := by
  rw [isKept_eq_line h, isKey]
  cases hlabel : occurrence.isLabel with
  | false => rfl
  | true => rw [h.inCaseList_eq hlabel]

end Occurrence

/-! ## 6. Streams of the same tokens -/

/-- Whether two segments are the same identifier, or texts of the same tokens. -/
def Segment.SameTokens : Segment → Segment → Prop
  | .ident word, .ident other => word = other
  | .text source, .text other => tokens source = tokens other
  | _, _ => False

/-- Whether two streams differ only in white space and comments between tokens. -/
def Body.SameTokens (body other : Body) : Prop :=
  List.Forall₂ Segment.SameTokens body.segments other.segments

instance : DecidableRel Segment.SameTokens
  | .ident word, .ident other => inferInstanceAs (Decidable (word = other))
  | .text source, .text other => inferInstanceAs (Decidable (tokens source = tokens other))
  | .ident _, .text _ | .text _, .ident _ => inferInstanceAs (Decidable False)

instance (body other : Body) : Decidable (body.SameTokens other) :=
  decidable_of_iff (body.segments.length = other.segments.length ∧
      ∀ pair ∈ body.segments.zip other.segments, pair.1.SameTokens pair.2)
    (by rw [Body.SameTokens, List.forall₂_iff_zip, Prod.forall])

theorem Segment.SameTokens.toTokens_eq {segment other : Segment} (h : segment.SameTokens other) :
    segment.toTokens = other.toTokens := by
  match segment, other, h with
  | .ident _, .ident _, rfl => rfl
  | .text _, .text _, h => exact h

section SameTokens

variable {segments others before before' : List Segment}

theorem tokens_adjacent (h : List.Forall₂ Segment.SameTokens segments others) :
    tokens (adjacentText segments) = tokens (adjacentText others) := by
  cases h with
  | nil => rfl
  | @cons segment other _ _ hhead _ =>
    cases segment <;> cases other <;> first | rfl | exact hhead | exact hhead.elim

/-- The same tokens open the same lists of cases. -/
theorem openListsAfter_eq (h : List.Forall₂ Segment.SameTokens before before') :
    openListsAfter before = openListsAfter before' := by
  induction h with
  | nil => rfl
  | @cons segment other before before' hhead _ ih =>
    show segment.toTokens.foldl openLists (openListsAfter before) =
      other.toTokens.foldl openLists (openListsAfter before')
    rw [hhead.toTokens_eq, ih]

/-- Whether two occurrences are of the same identifier between the same tokens, both in a list of
    cases or both not. -/
structure Occurrence.SameContext (occurrence other : Occurrence) : Prop where
  ident : occurrence.ident = other.ident
  before : tokens occurrence.textBefore = tokens other.textBefore
  after : tokens occurrence.textAfter = tokens other.textAfter
  list : occurrence.inCaseList = other.inCaseList

theorem Occurrence.SameContext.isKept_eq {occurrence other : Occurrence}
    (h : occurrence.SameContext other) (hclear : occurrence.StandsClear)
    (hclear' : other.StandsClear) : occurrence.isKept = other.isKept := by
  rw [Occurrence.isKept_eq hclear, Occurrence.isKept_eq hclear', isSelected, isSelected, isKey,
    isKey, isLabel, isLabel, precedesColon, precedesColon, followsBrace, followsBrace,
    followsComma, followsComma, h.before, h.after, h.list]

/-- **The same tokens give the same contexts**, one by one. -/
theorem sameContext_occurrencesAfter (h : List.Forall₂ Segment.SameTokens segments others)
    (hbefore : List.Forall₂ Segment.SameTokens before before') :
    List.Forall₂ Occurrence.SameContext (occurrencesAfter before segments)
      (occurrencesAfter before' others) := by
  induction h generalizing before before' with
  | nil => exact .nil
  | @cons segment other segments others hhead hrest ih =>
    match segment, other, hhead with
    | .ident ident, .ident _, rfl =>
      refine .cons ⟨rfl, tokens_adjacent hbefore, tokens_adjacent hrest, ?_⟩
        (ih (.cons rfl hbefore))
      rw [Occurrence.inCaseList, Occurrence.inCaseList, openListsAfter_eq hbefore]
    | .text _, .text _, hsame => exact ih (.cons hsame hbefore)

end SameTokens

/-- Which identifiers of a stream are replaced, in order. -/
def Body.replaced (subst : Substitution) (body : Body) : List Bool :=
  body.occurrences.map fun occurrence => occurrence.isReplaced subst

/-- **Layout makes no difference** to streams of the same tokens, as long as it hides nothing that
    stands beside a bound identifier. Such an identifier is then replaced unless a dot selects it or
    it is a key; so it is replaced in a list of cases. The instance has what it is bound to in its
    place, and the others as they are. -/
theorem Body.replaced_eq {body other : Body} {subst : Substitution} (h : body.SameTokens other)
    (hclear : ∀ occurrence ∈ body.occurrences, subst.bindsName occurrence.ident = true →
      occurrence.StandsClear)
    (hclear' : ∀ occurrence ∈ other.occurrences, subst.bindsName occurrence.ident = true →
      occurrence.StandsClear) :
    body.replaced subst = other.replaced subst ∧
      ∀ occurrence ∈ body.occurrences,
        occurrence.isReplaced subst =
          (subst.bindsName occurrence.ident && !(occurrence.isSelected || occurrence.isKey)) ∧
        instantiateSegment subst occurrence.before (.ident occurrence.ident) occurrence.after =
          match subst.getName? occurrence.ident, occurrence.isReplaced subst with
          | some bound, true => boundSegment occurrence.before bound
          | _, _ => .ident occurrence.ident := by
  have hcontexts : List.Forall₂ Occurrence.SameContext body.occurrences other.occurrences :=
    sameContext_occurrencesAfter h .nil
  obtain ⟨hlength, hcontext⟩ := List.forall₂_iff_zip.mp hcontexts
  constructor
  · rw [replaced, replaced, ← List.forall₂_eq_eq_eq, List.forall₂_map_left_iff,
      List.forall₂_map_right_iff]
    refine List.forall₂_iff_zip.mpr ⟨hlength, fun {occurrence occurrence'} hmem => ?_⟩
    have hsame := hcontext hmem
    rw [Occurrence.isReplaced, Occurrence.isReplaced, ← hsame.ident]
    cases hbound : subst.bindsName occurrence.ident with
    | false => rfl
    | true =>
      have hclear := hclear occurrence (List.of_mem_zip hmem).1 hbound
      have hclear' := hclear' occurrence' (List.of_mem_zip hmem).2 (hsame.ident ▸ hbound)
      rw [hsame.isKept_eq hclear hclear']
  · intro occurrence hmem
    refine ⟨?_, Occurrence.instantiateSegment_eq subst occurrence⟩
    rw [Occurrence.isReplaced]
    cases hbound : subst.bindsName occurrence.ident with
    | false => rfl
    | true => rw [Occurrence.isKept_eq (hclear occurrence hmem hbound)]

/-- A call in a list of cases, on one line. -/
def callLine : Body :=
  .ofScan
    "\x7b switch v \x7b case 0, T: p.T(Box\x7bU: 0, T: 1,\x7d, []T) \x7d \x7d".toList

/-- The same call on several lines, with comments. -/
def callLines : Body :=
  .ofScan
    ("\x7b // p.\n\tswitch v \x7b\n\tcase 0, T:\n\t\tp /* of */ .T(\n\t\t\tBox\x7b\n" ++
      "\t\t\t\tU: 0,\n\t\t\t\tT : 1, // one\n" ++
      "\t\t\t\x7d,\n\t\t\t[]/* of */T)\n\t\x7d\n\x7d").toList

/-- The case and the type of the slice are replaced, the selected name and the key stay. -/
theorem Body.replaced_eq_call :
    callLine.replaced ⟨[(.name "T", .name "int")], by decide⟩ =
        callLines.replaced ⟨[(.name "T", .name "int")], by decide⟩ ∧
      callLine.replaced ⟨[(.name "T", .name "int")], by decide⟩ =
        [false, false, false, true, false, false, false, false, false, true] :=
  ⟨(Body.replaced_eq (by decide +kernel) (by decide +kernel) (by decide +kernel)).1,
    by decide +kernel⟩

/-- **Layout can hide a selector**: a dot at the end of a line selects nothing. -/
theorem Body.layout_matters :
    ¬ ∀ (body other : Body) (subst : Substitution), body.SameTokens other →
      body.replaced subst = other.replaced subst := by
  intro h
  have hsame := h
    ⟨[.text "\x7b\n\t", .ident "x", .text ".", .ident "T", .text "()\n\x7d"]⟩
    ⟨[.text "\x7b\n\t", .ident "x", .text ".\n\t\t", .ident "T", .text "()\n\x7d"]⟩
    ⟨[(.name "T", .name "int")], by decide⟩ (by decide +kernel)
  revert hsame
  decide +kernel

/-- A comment before a key hides it as well. -/
example : Body.replaced ⟨[(.name "T", .name "int")], by decide⟩
      ⟨[.text "\x7b", .ident "p", .text "\x7b", .ident "T", .text ": 1\x7d\x7d"]⟩ ≠
    Body.replaced ⟨[(.name "T", .name "int")], by decide⟩
      ⟨[.text "\x7b", .ident "p", .text "\x7b/* of */ ", .ident "T", .text ": 1\x7d\x7d"]⟩ := by
  decide +kernel

/-- A line end hides that a name is one of several cases. -/
example : Body.replaced ⟨[(.name "T", .name "int")], by decide⟩
      ⟨[.text "\x7b", .ident "case", .text " 0, ", .ident "T", .text ":\n\x7d"]⟩ ≠
    Body.replaced ⟨[(.name "T", .name "int")], by decide⟩
      ⟨[.text "\x7b", .ident "case", .text " 0,\n\t", .ident "T", .text ":\n\x7d"]⟩ := by
  decide +kernel

/-- So does a brace, on one line as well: the name is in the list and stays. -/
example : (Body.ofScan "\x7bcase interface\x7b\x7d, T:\x7d".toList).occurrences.map
      (fun occurrence => (occurrence.ident, occurrence.inCaseList,
        occurrence.isReplaced ⟨[(.name "T", .name "int")], by decide⟩)) =
    [("case", false, false), ("interface", true, false), ("T", true, false)] := by
  decide +kernel

end GoStencil
