import GoStencil.Proofs.SourceFile.Parsed
import GoStencil.Proofs.SourceFile.RoundTrip
import GoStencil.Proofs.Stream.Rereading

/-!
# Files that are read again from what is written of them

* `SourceFile.unplaced`: a file without its places in a text.
* `Decl.IsReadFrom.isStreamRead`: the streams of what has been read are read again.
* `SourceFile.parse_render_of_parse`: a file that is read is read again as the same file, when its
  paths and types are written as themselves.
* `SourceFile.render_loses_import`: a file that is read need not be read again: a path in raw quotes
  is written in plain ones, where it may end early.
-/

namespace GoStencil.Grammar

open Pattern

variable {cursor last : Cursor} {nodes children : List Node}

/-! ## 1. Streams of what has been read -/

/-- A stream that is read between its braces, whatever follows it, is the body of a function. -/
theorem isBlock_of_takes {body : Body} {ms : List Char}
    (hsource : body.source = String.ofList ('\x7b' :: (ms ++ ['\x7d'])))
    (h : ∀ tail, Takes .spaced (.call .funcBody) ('\x7b' :: (ms ++ '\x7d' :: tail)) tail
      fun nodes => Body.ofNodes? nodes = some (Body.ofScan ('\x7b' :: (ms ++ ['\x7d'])))) :
    body.IsBlock where
  opens := ⟨_, by rw [hsource, String.toList_ofList]⟩
  takes tail := by
    rw [hsource, String.toList_ofList, List.cons_append, List.append_assoc]
    exact (h tail).imp fun _ hagain => ⟨_, hagain, Body.source_ofScan _⟩

theorem isBlock_of_reads {body : Body}
    (h : declarations.Reads .spaced (.call .funcBody) cursor (some (nodes, last)))
    (hbody : Body.ofNodes? nodes = some body) : body.IsBlock := by
  obtain ⟨ms, lexemes, hblock, hnested, hscans⟩ := exists_block h
  obtain ⟨cs, hreaches, hscan, -⟩ := exists_body h
  obtain rfl : cs = '\x7b' :: (ms ++ ['\x7d']) :=
    List.append_cancel_right (hreaches.1.symm.trans hblock.1)
  obtain rfl : body = Body.ofScan _ := Option.some.inj (hbody.symm.trans hscan)
  exact isBlock_of_takes (Body.source_ofScan _) fun tail =>
    takes_funcBody_of_nested hnested (hscans tail)

theorem takes_valueKeyword (keyword : ValueKeyword) {rest : List Char}
    (h : continues rest = false) :
    Takes .tight (.call .valueKeyword) (keyword.render.toList ++ rest) rest
      (Spells .valueKeyword keyword.render.toList) := by
  have hword : Takes .token (oneOf [text "var", text "const"]) (keyword.render.toList ++ rest) rest
      (· = []) := by
    cases keyword with
    | var => exact (takes_text .token "var" rest).alt
    | const =>
      have hvar : Refuses .token (text "var") ("const".toList ++ rest) :=
        refuses_text_of_head rfl nofun
      exact hvar.alt_takes (takes_text .token "const" rest)
  have hend := (refuses_identifierChar .token h).notAhead
  exact Takes.call_spells nofun (hword.seq (skipsIn_token rest) hend)

theorem continues_append_newline {cs rest : List Char} (h : continues (cs ++ rest) = false)
    (tail : List Char) : continues (cs ++ '\n' :: tail) = false := by
  cases cs with
  | nil => rfl
  | cons c cs => exact h

/-- A stream that is read up to a new line after its keyword is a line of values. -/
theorem isLine_of_takes {decl : ValueDecl} {ds : List Char}
    (hsource : decl.body.source = String.ofList ds)
    (hcontinues : ∀ tail, continues (ds ++ '\n' :: tail) = false)
    (h : ∀ tail, Takes .tight (atLeastOnce (streamPart .lineText)) (ds ++ '\n' :: tail)
      ('\n' :: tail) fun nodes => Body.ofSegments (Segment.ofNodes nodes) = Body.ofScan ds) :
    decl.IsLine := by
  intro tail
  have hwhole : Takes .tight (ruleBody .valueDecl)
      (decl.keyword.render.toList ++ (ds ++ '\n' :: tail)) ('\n' :: tail) _ :=
    (takes_valueKeyword decl.keyword (hcontinues tail)).seq (skipsIn_tight _) (h tail)
  rw [ValueDecl.render, hsource, String.toList_append, String.toList_ofList, List.append_assoc]
  refine (takes_compound .valueDecl rfl hwhole).imp ?_
  rintro _ ⟨start, stop, _, rfl, _, parts, rfl, hspells, hparts⟩
  obtain ⟨node, rfl, -, htext⟩ := text_of_spells hspells
  refine ⟨start, stop, _, rfl, Body.ofScan ds, Body.source_ofScan ds, fun span => ?_⟩
  rw [List.singleton_append, ValueDecl.ofParts_cons htext, hparts]

theorem isLine_of_reads {decl : ValueDecl}
    (h : declarations.Reads .tight (ruleBody .valueDecl) cursor (some (children, last)))
    (hdecl : ValueDecl.ofParts ⟨cursor.offset, last.offset⟩ children = .ok decl) :
    decl.IsLine := by
  obtain ⟨mid, ds, _, -, hcontinues, hline, hds, hdecl⟩ := exists_valueParts h hdecl
  rw [hds.1] at hcontinues
  have hsource : decl.body.source = String.ofList ds := by
    rw [hdecl, Body.source_ofScan]
  obtain ⟨hne, lexemes, hnested, hscans⟩ := exists_values hline hds
  exact isLine_of_takes hsource (continues_append_newline hcontinues) fun tail =>
    takes_line_of_nested hnested (hscans tail) hne

end GoStencil.Grammar

namespace GoStencil

open Grammar

theorem Decl.IsReadFrom.isStreamRead {text : String} {decl : Decl} (h : decl.IsReadFrom text) :
    decl.IsStreamRead := by
  cases h with
  | type => trivial
  | func _ h hdecl =>
    intro body hbody
    obtain ⟨_, _, _, nodes, -, -, hread, -, hnodes, -⟩ := exists_funcParts h hdecl hbody
    exact isBlock_of_reads hread hnodes
  | value _ h hdecl => exact isLine_of_reads h hdecl

/-! ## 2. Files without their places -/

/-- A declaration without its place. -/
def Decl.unplaced : Decl → Decl
  | .type decl => .type { decl with span := .nowhere }
  | .func decl => .func { decl with span := .nowhere }
  | .value decl => .value { decl with span := .nowhere }

/-- A file without the places of what is in it, and without the place it comes from. -/
def SourceFile.unplaced (file : SourceFile) : SourceFile :=
  { file with
    imports := file.imports.map ImportSpec.bare
    decls := file.decls.map Decl.unplaced
    sourceName := none }

theorem renderImports_bare (specs : List ImportSpec) :
    renderImports (specs.map ImportSpec.bare) = renderImports specs := by
  have hrender : ∀ spec : ImportSpec, spec.bare.render = spec.render := fun _ => rfl
  match specs with
  | [] => rfl
  | [spec] => rfl
  | first :: second :: specs =>
    simp only [renderImports, List.map_cons, List.map_map, Function.comp_def, hrender]

theorem Decl.render_unplaced (decl : Decl) : decl.unplaced.render = decl.render := by
  cases decl <;> rfl

/-- Places are not written. -/
theorem SourceFile.render_unplaced (file : SourceFile) : file.unplaced.render = file.render := by
  simp only [SourceFile.render, SourceFile.unplaced, renderImports_bare, List.map_map,
    Function.comp_def, Decl.render_unplaced]

/-- A stream that is cut where a scan cuts it. -/
def Body.rescan (body : Body) : Body :=
  .ofScan body.source.toList

/-- A declaration whose stream is cut where a scan cuts it. -/
def Decl.rescan : Decl → Decl
  | .type decl => .type decl
  | .func decl => .func { decl with body := decl.body.map Body.rescan }
  | .value decl => .value { decl with body := decl.body.rescan }

theorem Body.rescan_flat_ofScan (cs : List Char) : (Body.ofScan cs).flat.rescan = .ofScan cs := by
  have hsource : (Body.ofScan cs).flat.source = String.ofList cs := by
    rw [← Body.source_ofScan cs, Body.flat, Body.source]
    simp [Segment.source]
  rw [Body.rescan, hsource, String.toList_ofList]

/-- The seams of a stream that has been read are those that a scan finds. -/
theorem Decl.IsReadFrom.rescan_bare {text : String} {decl : Decl} (h : decl.IsReadFrom text) :
    decl.bare.rescan = decl.unplaced := by
  cases h with
  | type => rfl
  | @func _ _ _ _ decl _ h hdecl =>
    cases hbody : decl.body with
    | none => simp [Decl.bare, Decl.rescan, Decl.unplaced, hbody]
    | some body =>
      obtain ⟨_, _, _, nodes, -, -, hread, -, hnodes, -⟩ := exists_funcParts h hdecl hbody
      obtain ⟨cs, -, hscan, -⟩ := exists_body hread
      obtain rfl : body = Body.ofScan cs := Option.some.inj (hnodes.symm.trans hscan)
      simp [Decl.bare, Decl.rescan, Decl.unplaced, hbody, Body.rescan_flat_ofScan]
  | @value _ _ _ _ decl _ h hdecl =>
    obtain ⟨_, ds, _, -, -, -, -, hvalue⟩ := exists_valueParts h hdecl
    rw [hvalue]
    simp [Decl.bare, Decl.rescan, Decl.unplaced, Body.rescan_flat_ofScan]

/-- Files that have been read are the same when they say the same. -/
theorem SourceFile.unplaced_eq_of_bare {text text' : String} {file again : SourceFile}
    (hfile : ∀ decl ∈ file.decls, decl.IsReadFrom text)
    (hagain : ∀ decl ∈ again.decls, decl.IsReadFrom text') (h : again.bare = file.bare) :
    again.unplaced = file.unplaced := by
  have hdecls : ∀ {text : String} {decls : List Decl}, (∀ decl ∈ decls, decl.IsReadFrom text) →
      (decls.map Decl.bare).map Decl.rescan = decls.map Decl.unplaced := by
    intro text decls hread
    rw [List.map_map]
    exact List.map_congr_left fun decl hmem => (hread decl hmem).rescan_bare
  obtain ⟨hpackage, himports, hbare, -⟩ := SourceFile.mk.inj h
  rw [SourceFile.unplaced, SourceFile.unplaced, hpackage, himports, ← hdecls hfile,
    ← hdecls hagain, hbare]

/-! ## 3. Files -/

/-- **A file that is read is read again from what is written of it, as the same file**, if the paths
    of its imports end at the quotes that are written around them, its array lengths are neither
    empty nor comments, and no single result is in parentheses or takes any number of arguments. -/
theorem SourceFile.parse_render_of_parse {text : String} {name : Option String} {file : SourceFile}
    (h : SourceFile.parse text name = .ok file) (hwritable : file.isWritable = true)
    (name' : Option String) :
    ∃ again, SourceFile.parse file.render name' = .ok again ∧
      again.unplaced = file.unplaced ∧ again.render = file.render := by
  have hread := SourceFile.isReadFrom_of_parse h
  obtain ⟨hreadable, hsame⟩ :=
    (SourceFile.isParsed_of_parse h).isReadable_and_reread hwritable
  obtain ⟨again, hagain, hbare⟩ := SourceFile.parse_render_file hreadable
    (fun decl hmem => (hread decl hmem).isStreamRead) name'
  rw [hsame] at hbare
  have hreadAgain := SourceFile.isReadFrom_of_parse hagain
  have hunplaced := SourceFile.unplaced_eq_of_bare hread hreadAgain hbare
  refine ⟨again, hagain, hunplaced, ?_⟩
  rw [← again.render_unplaced, hunplaced, file.render_unplaced]

/-- A path in raw quotes, a group of one type, entries with names and without, and streams. -/
def groupText : String :=
  "package p\n\nimport \x60io\x60\n\ntype (\n\tA = []int\n)\n\nfunc f(a, b A, T) ((A), error) " ++
    "\x7b g(1) \x7d\nvar v = \"a\" // T\n"

theorem SourceFile.parse_render_of_parse_group :
    ∃ file again, SourceFile.parse groupText none = .ok file ∧ file.decls.length = 3 ∧
      file.isWritable = true ∧ file.render ≠ groupText ∧
      SourceFile.parse file.render none = .ok again ∧
        again.unplaced = file.unplaced ∧ again.render = file.render := by
  have hparse : (SourceFile.parse groupText none).toOption.map (fun file =>
      (file.decls.length, file.isWritable, decide (file.render = groupText))) =
        some (3, true, false) := by decide +kernel
  cases hfile : SourceFile.parse groupText none with
  | error cause =>
    rw [hfile] at hparse
    cases hparse
  | ok file =>
    rw [hfile] at hparse
    obtain ⟨hlength, hrest⟩ := Prod.mk.inj (Option.some.inj hparse)
    obtain ⟨hwritable, hother⟩ := Prod.mk.inj hrest
    obtain ⟨again, hagain, hsame, hrender⟩ :=
      SourceFile.parse_render_of_parse hfile hwritable none
    exact ⟨file, again, rfl, hlength, hwritable, of_decide_eq_false hother, hagain, hsame, hrender⟩

/-- Not every file that is read is read again from what is written of it. -/
theorem SourceFile.render_loses_import :
    ¬ ∀ (text : String) (name : Option String) (file : SourceFile),
      SourceFile.parse text name = .ok file →
      ∃ again, SourceFile.parse file.render name = .ok again ∧
        again.unplaced = file.unplaced ∧ again.render = file.render := by
  intro h
  have hparse : (SourceFile.parse "package p\n\nimport \x60a\"b\x60\n" none).toOption =
      some ⟨"p", [⟨none, "a\"b", ⟨18, 23⟩⟩], [], none⟩ := by decide +kernel
  have hprint : (SourceFile.mk "p" [⟨none, "a\"b", ⟨18, 23⟩⟩] [] none).render =
      "package p\n\nimport \"a\"b\"\n" := by decide +kernel
  have hreparse : (SourceFile.parse "package p\n\nimport \"a\"b\"\n" none).toOption = none := by
    decide +kernel
  cases hfile : SourceFile.parse "package p\n\nimport \x60a\"b\x60\n" none with
  | error cause =>
    rw [hfile] at hparse
    cases hparse
  | ok file =>
    rw [hfile] at hparse
    cases hparse
    obtain ⟨again, hagain, -⟩ := h _ none _ hfile
    rw [hprint] at hagain
    rw [hagain] at hreparse
    cases hreparse

end GoStencil
