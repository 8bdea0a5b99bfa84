import GoStencil.SourceFile.Parser
import GoStencil.SourceFile.Printer
import GoStencil.Specialization
import GoStencil.Proofs.TypeExpr.RoundTrip

/-!
# Outputs that cannot be read

A name of the template takes whatever stands in its place in the provider, be it the type of a
last parameter that takes any number of arguments. Such a type can be read after the name of a
parameter, but in no element of another type.

* `Unreadable`: the texts that are the beginning of no type.
* `TypeExpr.LeadsToVariadic`: the types whose elements lead to that of a last parameter.
* `TypeExpr.parse_render_of_leadsToVariadic`: none of them is read.
* `specialize_writes_rejected`: a template and a provider whose output has one.
-/

namespace GoStencil

open Grammar Pattern

/-! ## 1. Texts of no type -/

/-- Whether a text is the beginning of no type. -/
structure Unreadable (cs : List Char) : Prop where
  opens : isOpening cs = true
  refuses : ∀ tail, Refuses .spaced (.call .typeExpr) (cs ++ tail)

/-- No type is read when none is in the forms that may begin. -/
theorem refuses_typeExpr_of_filter {input : List Char} (forms : List Rule)
    (hforms : (typeForms.filter fun form => begins form input) = forms)
    (h : ∀ form ∈ forms, Refuses .spaced (.call form) input) :
    Refuses .spaced (.call .typeExpr) input := by
  refine Refuses.call ?_
  show Refuses .spaced (oneOf (typeForms.map .call)) input
  refine refuses_oneOf fun pattern hmem => ?_
  obtain ⟨form, hform, rfl⟩ := List.mem_map.mp hmem
  by_cases hbegins : begins form input = true
  · refine h form ?_
    rw [← hforms]
    exact List.mem_filter.mpr ⟨hform, hbegins⟩
  · exact refuses_of_begins hform (by simpa using hbegins)

namespace Unreadable

variable {cs : List Char}

theorem append (h : Unreadable cs) (ds : List Char) : Unreadable (cs ++ ds) :=
  ⟨isOpening_append h.opens, fun tail => by
    rw [List.append_assoc]
    exact h.refuses (ds ++ tail)⟩

theorem dots (cs : List Char) : Unreadable ("...".toList ++ cs) :=
  ⟨rfl, fun _ => refuses_typeExpr rfl⟩

theorem pointer (h : Unreadable cs) : Unreadable ('*' :: cs) := by
  refine ⟨rfl, fun tail => refuses_typeExpr_of_filter [.pointerType] rfl fun form hform => ?_⟩
  cases List.mem_singleton.mp hform
  exact Refuses.call
    (Takes.seq_refuses (takes_text .spaced "*" _) (skips_append h.opens) (h.refuses tail))

theorem slice (h : Unreadable cs) : Unreadable ('[' :: ']' :: cs) := by
  refine ⟨rfl, fun tail => refuses_typeExpr_of_filter [.sliceType, .arrayType] rfl
    fun form hform => ?_⟩
  rcases List.mem_cons.mp hform with rfl | hform
  · exact Refuses.call (Takes.seq_refuses (takes_text .spaced "[" _) (skips_of_noGap rfl)
      (Takes.seq_refuses (takes_text .spaced "]" _) (skips_append h.opens) (h.refuses tail)))
  · cases List.mem_singleton.mp hform
    have hstop : Refuses .token (anyCharBut (oneOf [text "]", newline])) (']' :: (cs ++ tail)) :=
      refuses_anyCharBut (Takes.alt (takes_text .token "]" _))
    exact Refuses.call (Takes.seq_refuses (takes_text .spaced "[" _) (skips_of_noGap rfl)
      (Refuses.seq (Refuses.call (Refuses.seq hstop))))

theorem paren (h : Unreadable cs) : Unreadable ('(' :: (cs ++ [')'])) := by
  refine ⟨rfl, fun tail => refuses_typeExpr_of_filter [.parenType] rfl fun form hform => ?_⟩
  cases List.mem_singleton.mp hform
  have htext : '(' :: (cs ++ [')']) ++ tail = '(' :: (cs ++ ')' :: tail) := by
    simp only [List.cons_append, List.append_assoc, List.nil_append]
  rw [htext]
  exact Refuses.call (Takes.seq_refuses (takes_text .spaced "(" _) (skips_append h.opens)
    (Takes.seq_refuses (takes_newlines (isInked_append h.opens)) (skips_append h.opens)
      (Refuses.seq (h.refuses _))))

theorem receive (h : Unreadable cs) : Unreadable ("<-chan ".toList ++ cs) := by
  refine ⟨rfl, fun tail => refuses_typeExpr_of_filter [.recvChanType] rfl fun form hform => ?_⟩
  cases List.mem_singleton.mp hform
  have hinked : isInked (cs ++ tail) = true := isInked_append h.opens
  have hword : Takes .spaced (keyword .chanWord "chan") ("chan".toList ++ ' ' :: (cs ++ tail))
      (' ' :: (cs ++ tail)) (· = []) := takes_keyword rfl rfl rfl rfl
  exact Refuses.call (Takes.seq_refuses (takes_text .spaced "<-" _) (skips_of_noGap rfl)
    (Takes.seq_refuses hword (skips_blank (noGap_of_isInked hinked)) (h.refuses tail)))

theorem array {length : String} (hlength : isArrayLength length = true) (h : Unreadable cs) :
    Unreadable ('[' :: (length.toList ++ ']' :: cs)) := by
  obtain ⟨c, ls, hchars, hall, hgap, -⟩ := exists_of_isArrayLength hlength
  refine ⟨rfl, fun tail => refuses_typeExpr_of_filter [.sliceType, .arrayType] rfl
    fun form hform => ?_⟩
  have htext : '[' :: (length.toList ++ ']' :: cs) ++ tail =
      '[' :: (length.toList ++ ']' :: (cs ++ tail)) := by
    simp only [List.cons_append, List.append_assoc]
  have hskips : Skips (length.toList ++ ']' :: (cs ++ tail))
      (length.toList ++ ']' :: (cs ++ tail)) := by
    rw [hchars]
    exact skips_of_noGap (hgap (cs ++ tail))
  rw [htext]
  rcases List.mem_cons.mp hform with rfl | hform
  · refine Refuses.call (Takes.seq_refuses (takes_text .spaced "[" _) hskips
      (Refuses.seq (refuses_text_of_head rfl ?_)))
    rintro after hafter
    rw [hchars] at hafter
    cases hafter
    exact (hall ']' List.mem_cons_self).1 rfl
  · cases List.mem_singleton.mp hform
    exact Refuses.call (Takes.seq_refuses (takes_text .spaced "[" _) hskips
      (Takes.seq_refuses (takes_arrayLen hlength _) (skips_of_noGap rfl)
        (Takes.seq_refuses (takes_text .spaced "]" _) (skips_append h.opens) (h.refuses tail))))

/-- Neither name of a type is read from a reserved word. -/
theorem refuses_names_of_word {word : String} {rest : List Char} (hword : word ∈ reservedWords)
    (hrest : continues rest = false) :
    ∀ form ∈ [Rule.qualifiedIdent, .typeName],
      Refuses .spaced (.call form) (word.toList ++ rest) := by
  intro form hform
  rcases List.mem_cons.mp hform with rfl | hform
  · exact Refuses.call (Refuses.seq (refuses_identifier_of_word hword hrest))
  · cases List.mem_singleton.mp hform
    exact Refuses.call (refuses_identifier_of_word hword hrest)

/-- A text that begins with a reserved word is no type when the form of that word is not read. -/
theorem of_word (word : String) (rest : List Char) (form : Rule) (hword : word ∈ reservedWords)
    (hrest : ∀ tail, continues (rest ++ tail) = false)
    (hopens : isOpening (word.toList ++ rest) = true)
    (hforms : ∀ tail, (typeForms.filter fun form => begins form (word.toList ++ (rest ++ tail))) =
      [form, .qualifiedIdent, .typeName])
    (h : ∀ tail, Refuses .spaced (.call form) (word.toList ++ (rest ++ tail))) :
    Unreadable (word.toList ++ rest) := by
  refine ⟨hopens, fun tail => ?_⟩
  rw [List.append_assoc]
  refine refuses_typeExpr_of_filter _ (hforms tail) fun other hother => ?_
  rcases List.mem_cons.mp hother with rfl | hother
  · exact h tail
  · exact refuses_names_of_word hword (hrest tail) other hother

theorem send (h : Unreadable cs) : Unreadable ("chan<- ".toList ++ cs) := by
  refine of_word "chan" ('<' :: '-' :: ' ' :: cs) .chanType (by decide) (fun _ => rfl) rfl
    (fun _ => rfl) fun tail => ?_
  have harrow : Takes .spaced (.call .sendArrow) ('<' :: '-' :: ' ' :: (cs ++ tail))
      (' ' :: (cs ++ tail)) _ :=
    takes_phrase .sendArrow rfl (takes_text .spaced "<-" _)
  exact Refuses.call (Takes.seq_refuses (takes_keyword rfl rfl rfl rfl) (skips_of_noGap rfl)
    (Takes.seq_refuses harrow.opt (skips_blank (noGap_of_isInked (isInked_append h.opens)))
      (h.refuses tail)))

theorem both (h : Unreadable cs) (harrow : ∀ tail after, cs ++ tail ≠ '<' :: after) :
    Unreadable ("chan ".toList ++ cs) := by
  refine of_word "chan" (' ' :: cs) .chanType (by decide) (fun _ => rfl) rfl
    (fun _ => rfl) fun tail => ?_
  have hnone : Refuses .spaced (.call .sendArrow) (cs ++ tail) :=
    Refuses.call (refuses_text_of_head rfl (harrow tail))
  exact Refuses.call (Takes.seq_refuses (takes_keyword rfl rfl rfl rfl)
    (skips_blank (noGap_of_isInked (isInked_append h.opens)))
    (Takes.seq_refuses hnone.opt (skips_append h.opens) (h.refuses tail)))

theorem map_key (h : Unreadable cs) : Unreadable ("map[".toList ++ cs) := by
  refine of_word "map" ('[' :: cs) .mapType (by decide) (fun _ => rfl) rfl
    (fun _ => rfl) fun tail => ?_
  exact Refuses.call (Takes.seq_refuses (takes_keyword rfl rfl rfl rfl) (skips_of_noGap rfl)
    (Takes.seq_refuses (takes_text .spaced "[" _) (skips_append h.opens)
      (Refuses.seq (h.refuses tail))))

theorem map_value {ds : List Char} {key : TypeExpr} (hkey : TakesType ds key)
    (h : Unreadable cs) : Unreadable ("map[".toList ++ (ds ++ ']' :: cs)) := by
  refine of_word "map" ('[' :: (ds ++ ']' :: cs)) .mapType (by decide) (fun _ => rfl) rfl
    (fun _ => rfl) fun tail => ?_
  obtain ⟨mid, hmid, htakes⟩ := hkey.before (rfl : isStop (']' :: (cs ++ tail)) = true)
  have htext : '[' :: (ds ++ ']' :: cs) ++ tail = '[' :: (ds ++ ']' :: (cs ++ tail)) := by
    simp only [List.cons_append, List.append_assoc]
  rw [htext]
  exact Refuses.call (Takes.seq_refuses (takes_keyword rfl rfl rfl rfl) (skips_of_noGap rfl)
    (Takes.seq_refuses (takes_text .spaced "[" _) (skips_append hkey.opens)
      (Takes.seq_refuses htakes hmid
        (Takes.seq_refuses (takes_text .spaced "]" _) (skips_append h.opens)
          (h.refuses tail)))))

end Unreadable

/-! ## 2. Types that lead to one of a last parameter -/

/-- Whether the elements of a type lead to one that takes any number of arguments. -/
inductive TypeExpr.LeadsToVariadic : TypeExpr → Prop where
  | variadic (elem : TypeExpr) : LeadsToVariadic (.variadic elem)
  | pointer {elem : TypeExpr} (h : LeadsToVariadic elem) : LeadsToVariadic (.pointer elem)
  | slice {elem : TypeExpr} (h : LeadsToVariadic elem) : LeadsToVariadic (.array none elem)
  | array {length : String} {elem : TypeExpr} (hlength : isArrayLength length = true)
      (h : LeadsToVariadic elem) : LeadsToVariadic (.array (some length) elem)
  | paren {inner : TypeExpr} (h : LeadsToVariadic inner) : LeadsToVariadic (.paren inner)
  | channel {direction : Direction} {value : TypeExpr} (h : LeadsToVariadic value) :
      LeadsToVariadic (.channel direction value)
  | map_key {key value : TypeExpr} (h : LeadsToVariadic key) : LeadsToVariadic (.map key value)
  | map_value {key value : TypeExpr} (hkey : key.IsWellFormed) (h : LeadsToVariadic value) :
      LeadsToVariadic (.map key value)

namespace TypeExpr.LeadsToVariadic

variable {type : TypeExpr}

/-- Only a receive channel begins with an arrow. -/
theorem head_ne (h : type.LeadsToVariadic) (hparens : needsParens .both type = false) :
    ∀ tail after, type.render.toList ++ tail ≠ '<' :: after := by
  intro tail after
  cases h with
  | @channel direction value _ =>
    rw [toList_render_channel]
    cases direction with
    | receive => cases hparens
    | both => nofun
    | send => nofun
  | variadic | pointer | slice | array | paren =>
    rw [TypeExpr.render]
    simp only [String.toList_append]
    nofun
  | map_key | map_value =>
    rw [toList_render_map]
    nofun

/-- **A type that leads to one of a last parameter is the beginning of no type.** -/
theorem unreadable (h : type.LeadsToVariadic) : Unreadable type.render.toList := by
  induction h with
  | variadic elem =>
    rw [TypeExpr.render, String.toList_append]
    exact .dots _
  | pointer _ ih =>
    rw [TypeExpr.render, String.toList_append]
    exact ih.pointer
  | slice _ ih =>
    rw [TypeExpr.render, String.toList_append]
    exact ih.slice
  | array hlength _ ih =>
    rw [TypeExpr.render, String.toList_append, String.toList_append, String.toList_append,
      List.append_assoc, List.append_assoc]
    exact ih.array hlength
  | paren _ ih =>
    rw [TypeExpr.render, String.toList_append, String.toList_append]
    exact ih.paren
  | @channel direction value hvalue ih =>
    rw [toList_render_channel]
    cases direction with
    | receive => exact ih.receive
    | send => exact ih.send
    | both =>
      by_cases hparens : needsParens .both value = true
      · rw [if_pos hparens]
        exact ih.paren.both nofun
      · rw [if_neg hparens]
        exact ih.both (hvalue.head_ne (by simpa using hparens))
  | @map_key key value _ ih =>
    rw [toList_render_map, ← List.singleton_append, ← List.append_assoc, ← List.append_assoc]
    exact ih.map_key.append _
  | map_value hkey _ ih =>
    rw [toList_render_map]
    exact ih.map_value hkey.isReadable.takes.1

end TypeExpr.LeadsToVariadic

/-- A text that begins like no type is not parsed. -/
theorem parse_of_unreadable {text : String} (h : Unreadable text.toList) :
    TypeExpr.parse text = .error .rejected := by
  have hrefuses := h.refuses []
  have hstart : Skips (text.toList ++ []) (text.toList ++ []) := skips_append h.opens
  rw [List.append_nil] at hrefuses hstart
  obtain ⟨_, offset, hgap, rfl⟩ := hstart 0
  have hfails : declarations.Reads .spaced (.call .typeExprOnly) (Cursor.start text) none :=
    .callFails (.seq (.atStart .spaced (Cursor.start text)) hgap (.seqFails (hrefuses offset)))
  have hparse : declarations.parse .typeExprOnly text = none := by
    rw [Option.eq_none_iff_forall_ne_some]
    intro node hnode
    obtain ⟨last, hreads⟩ := parse_eq_some_iff.mp hnode
    cases hfails.unique hreads
  unfold TypeExpr.parse
  rw [hparse]

/-- **No type is read** whose elements lead to one that takes any number of arguments. -/
theorem TypeExpr.parse_render_of_leadsToVariadic {type : TypeExpr} (h : type.LeadsToVariadic) :
    TypeExpr.parse type.render = .error .rejected :=
  parse_of_unreadable h.unreadable

/-! ## 3. An output with such a type -/

/-- A template that has a slice of what its function takes. -/
def sliceTemplate : SourceFile where
  package := "t"
  imports := []
  decls :=
    [.type ⟨"E", false, .interface .nil, ⟨15, 28⟩⟩,
     .type ⟨"F", false, .function (.cons [] (.name "E") none .nil) .nil, ⟨34, 43⟩⟩,
     .type ⟨"_G", false, .array none (.name "E"), ⟨49, 55⟩⟩]
  sourceName := none

/-- A provider whose function takes any number of arguments. -/
def variadicProvider : SourceFile where
  package := "p"
  imports := []
  decls :=
    [.type ⟨"H", false, .function (.cons [] (.variadic (.name "int")) none .nil) .nil, ⟨15, 29⟩⟩]
  sourceName := none

/-- Not every output for two parsed files is read back: the slice is written as `[]...int`. -/
theorem specialize_writes_rejected :
    ¬ ∀ (templateText providerText : String) (template provider : SourceFile),
      SourceFile.parse templateText none = .ok template →
      SourceFile.parse providerText none = .ok provider →
      (∃ file, SourceFile.parse template.render none = .ok file) →
      ∀ output ∈ (specialize .default template provider).outputs,
        ∃ file, SourceFile.parse output.file.render none = .ok file := by
  intro h
  have hok : ∀ {parsed : Parsed SourceFile} {file : SourceFile},
      parsed.toOption = some file → parsed = .ok file := by
    intro parsed file hparsed
    cases parsed with
    | error => cases hparsed
    | ok =>
      cases hparsed
      rfl
  have htemplate : SourceFile.parse
      "package t\ntype E interface\x7b\x7d\ntype F func(E)\ntype _G []E\n" none =
        .ok sliceTemplate := hok (by decide +kernel)
  have hprovider : SourceFile.parse "package p\ntype H func(...int)\n" none =
      .ok variadicProvider := hok (by decide +kernel)
  have hreread : ∃ file, SourceFile.parse sliceTemplate.render none = .ok file := by
    cases hparse : SourceFile.parse sliceTemplate.render none with
    | ok file => exact ⟨file, rfl⟩
    | error =>
      have hsome : (SourceFile.parse sliceTemplate.render none).toOption.isSome = true := by
        decide +kernel
      rw [hparse] at hsome
      cases hsome
  have hread := h _ _ _ _ htemplate hprovider hreread
  have houtputs : ((specialize .default sliceTemplate variadicProvider).outputs.any fun output =>
      (SourceFile.parse output.file.render none).toOption.isNone) = true := by
    decide +kernel
  obtain ⟨output, hmem, hnone⟩ := List.any_eq_true.mp houtputs
  obtain ⟨file, hfile⟩ := hread output hmem
  rw [hfile] at hnone
  cases hnone

end GoStencil
