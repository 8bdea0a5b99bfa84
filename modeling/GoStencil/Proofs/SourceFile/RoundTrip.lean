import GoStencil.Proofs.SourceFile.Declarations

/-!
# Files are read back

A written file is the package clause, the imports and the declarations, with an empty line before
each. All of them are read back, but for their places in the text.

* `takes_file`: what is read from the text of a file.
* `SourceFile.parse_render_file`: the file that comes back.
-/

namespace GoStencil.Grammar

open Pattern

variable {input tail rest : List Char}

/-! ## 1. What stands after an empty line -/

/-- The end of a line, and an empty line. -/
def emptyLine : List Char :=
  ['\n', '\n']

/-- Something after separators. -/
def separateRound (pattern : Pattern) : Pattern :=
  .seq separator pattern

theorem takes_separator_emptyLine {cs : List Char} (h : isOpening cs = true) :
    Takes .spaced separator (emptyLine ++ (cs ++ tail)) (cs ++ tail) (· = []) := by
  have hline : ∀ rest, Takes .spaced (oneOf [newline, text ";"]) ('\n' :: rest) rest (· = []) :=
    fun rest => Takes.alt (takes_newline .spaced rest)
  have hmany := (hline (cs ++ tail)).many_last (skips_append h) (refuses_lineEnd h)
  refine (Takes.seq (hline ('\n' :: (cs ++ tail))) (skips_of_noGap rfl) hmany).imp ?_
  rintro _ ⟨_, _, rfl, rfl, rfl⟩
  rfl

theorem takes_separator_end : Takes .spaced separator ['\n'] [] (· = []) := by
  have hline : Takes .spaced (oneOf [newline, text ";"]) ['\n'] [] (· = []) :=
    Takes.alt (takes_newline .spaced [])
  have hnone : Refuses .spaced (oneOf [newline, text ";"]) [] :=
    Refuses.alt (refuses_newline rfl) (refuses_text_of_head rfl nofun)
  refine (Takes.seq hline (skips_of_noGap rfl) hnone.many).imp ?_
  rintro _ ⟨_, _, rfl, rfl, rfl⟩
  rfl

theorem takes_separateRound {pattern : Pattern} {cs stop : List Char} {P : List Node → Prop}
    (hopens : isOpening cs = true) (h : Takes .spaced pattern (cs ++ tail) stop P) :
    Takes .spaced (separateRound pattern) (emptyLine ++ (cs ++ tail)) stop P := by
  have hround : Takes .spaced (separateRound pattern) (emptyLine ++ (cs ++ tail)) stop _ :=
    Takes.seq (takes_separator_emptyLine hopens) (skips_append hopens) h
  exact hround.imp fun _ hnodes => hnodes.nil_left

/-- **Items are read**, each after an empty line. -/
theorem takes_separated {α : Type} {pattern : Pattern} {write : α → List Char}
    {P : α → List Node → Prop} {items : List α}
    (hitems : ∀ item ∈ items, TakesBefore EndsLine pattern (write item) (P item))
    (htail : ∃ after, tail = '\n' :: after)
    (hrest : Refuses .spaced (separateRound pattern) tail) :
    (∃ after, trailing emptyLine write items ++ tail = '\n' :: after) ∧
      ∃ stop, Skips stop tail ∧ Takes .spaced (.many (separateRound pattern))
        (trailing emptyLine write items ++ tail) stop (Each P items) := by
  have hskips : Skips tail tail := by
    obtain ⟨after, rfl⟩ := htail
    exact skips_of_noGap rfl
  have hends : EndsLine tail tail := ⟨rfl, htail⟩
  obtain ⟨next, stop, ⟨rfl, hends⟩, hstop, hmany⟩ :=
    takes_many_items emptyLine write
      (fun hitem hfits => by
        obtain ⟨stop, hstop, htakes⟩ := hitem.takes hfits
        exact ⟨stop, hstop, takes_separateRound hitem.opens htakes⟩)
      hitems (fun _ _ _ _ _ => ⟨rfl, _, rfl⟩) hends hskips hrest
  exact ⟨hends, stop, hstop, hmany⟩

theorem flatMap_lines {α : Type} (write : α → List Char) (items : List α) :
    '\n' :: items.flatMap (fun item => '\n' :: (write item ++ ['\n'])) =
      trailing emptyLine write items ++ ['\n'] := by
  induction items with
  | nil => rfl
  | cons item items ih =>
    simp only [trailing, List.flatMap_cons, List.append_assoc] at ih ⊢
    rw [← ih]
    simp only [emptyLine, List.cons_append, List.nil_append, List.append_assoc]

/-! ## 2. The parts of a file -/

theorem takes_packageClause {package : String} (h : isName package = true)
    (hrest : continues rest = false) :
    Takes .spaced (.call .packageClause) ("package".toList ++ ' ' :: (package.toList ++ rest)) rest
      (Makes .packageClause (Spells .identifier package.toList)) := by
  have hgap : noGap (package.toList ++ rest) = true :=
    noGap_of_isInked (isInked_append (isOpening_of_isName h))
  have hbody : Takes .spaced (ruleBody .packageClause)
      ("package".toList ++ ' ' :: (package.toList ++ rest)) rest _ :=
    Takes.seq (takes_keyword rfl rfl rfl rfl) (skips_blank hgap) (takes_identifier nofun h hrest)
  refine (takes_phrase .packageClause rfl hbody).imp ?_
  rintro _ ⟨start, stop, children, rfl, hchildren⟩
  exact ⟨start, stop, children, rfl, hchildren.nil_left⟩

/-- The imports of a file, when it has any. -/
def importGroups : List ImportSpec → List (List ImportSpec)
  | [] => []
  | specs => [specs]

theorem takesBefore_importGroups {specs : List ImportSpec} (h : ∀ spec ∈ specs, spec.IsReadable) :
    ∀ group ∈ importGroups specs,
      TakesBefore EndsLine (.call .importDecl) (importsText group) (WritesImports group) := by
  intro group hgroup
  cases specs with
  | nil => cases hgroup
  | cons first specs =>
    cases List.mem_singleton.mp hgroup
    exact takesBefore_importDecl h

/-- The text of a declaration. -/
def declText (decl : Decl) : List Char :=
  decl.render.toList

theorem refuses_importDecl (h : ∀ rest, input ≠ "import".toList ++ rest) :
    Refuses .spaced (.call .importDecl) input :=
  Refuses.call (Refuses.seq (refuses_keyword rfl rfl fun rest hrest => absurd hrest (h rest)))

theorem declText_ne (decl : Decl) (tail : List Char) :
    ∀ rest, declText decl ++ tail ≠ "import".toList ++ rest := by
  intro rest h
  cases decl with
  | type decl =>
    rw [declText, Decl.render, toList_render_typeDecl] at h
    cases h
  | func decl =>
    rw [declText, Decl.render, toList_render_funcDecl] at h
    cases h
  | value decl =>
    rw [declText, Decl.render, ValueDecl.render, String.toList_append] at h
    revert h
    cases decl.keyword <;> exact fun h => by cases h

theorem refuses_text_end {mode : Mode} {s : String} {c : Char} {cs : List Char}
    (hs : s.toList = c :: cs) : Refuses mode (text s) [] :=
  refuses_text_of_head hs nofun

theorem refuses_anyDecl_end : Refuses .spaced anyDecl [] := by
  have hkeyword : Refuses .token (oneOf [text "var", text "const"]) [] :=
    (refuses_text_end rfl).alt (refuses_text_end rfl)
  exact (refuses_typeDecl fun _ => (List.cons_ne_nil _ _).symm).alt
    ((refuses_funcDecl fun _ => (List.cons_ne_nil _ _).symm).alt
      (Refuses.call (Refuses.seq (Refuses.call (Refuses.seq hkeyword)))))

/-- Declarations are not taken for imports. -/
theorem refuses_import_of_decls {decls : List Decl}
    (h : ∀ decl ∈ decls, isOpening (declText decl) = true) :
    Refuses .spaced (separateRound (.call .importDecl))
      (trailing emptyLine declText decls ++ ['\n']) := by
  cases decls with
  | nil =>
    exact Takes.seq_refuses takes_separator_end (skips_of_noGap rfl) (refuses_importDecl nofun)
  | cons decl decls =>
    have hopens := h decl List.mem_cons_self
    have htext : trailing emptyLine declText (decl :: decls) ++ ['\n'] =
        emptyLine ++ (declText decl ++ (trailing emptyLine declText decls ++ ['\n'])) := by
      simp only [trailing, List.flatMap_cons, List.append_assoc]
    rw [htext]
    exact Takes.seq_refuses (takes_separator_emptyLine hopens) (skips_append hopens)
      (refuses_importDecl (declText_ne decl _))

/-! ## 3. The whole file -/

/-- The text of a file. -/
def fileText (file : SourceFile) : List Char :=
  "package".toList ++ ' ' :: (file.package.toList ++
    (trailing emptyLine importsText (importGroups file.imports) ++
      (trailing emptyLine declText file.decls ++ ['\n'])))

/-- Whether nodes stand for the parts of a file. -/
def WritesFile (file : SourceFile) : List Node → Prop :=
  Joined (Makes .packageClause (Spells .identifier file.package.toList))
    (Joined (Each WritesImports (importGroups file.imports))
      (Joined (Each (fun decl => WritesDecl decl.reread) file.decls)
        (Makes .endOfInput fun _ => True)))

/-- What a file is made of. -/
def fileParts : Pattern :=
  inOrder [newlines, .call .packageClause, .many (separateRound (.call .importDecl)),
    .many (separateRound anyDecl), .opt separator, .call .endOfInput]

/-- **The parts of a file are read from its text.** -/
theorem takes_file {file : SourceFile} (h : file.IsReadable)
    (hstreams : ∀ decl ∈ file.decls, decl.IsStreamRead) :
    Takes .spaced fileParts (fileText file) [] (WritesFile file) := by
  have hitems : ∀ decl ∈ file.decls, TakesBefore EndsLine anyDecl (declText decl)
      (WritesDecl decl.reread) := fun decl hdecl =>
    takesBefore_decl (h.decls decl hdecl) (hstreams decl hdecl)
  have hend : Refuses .spaced (separateRound anyDecl) ['\n'] :=
    Takes.seq_refuses takes_separator_end (skips_of_noGap rfl) refuses_anyDecl_end
  obtain ⟨hdeclsHead, stop, hstop, hdecls⟩ := takes_separated hitems ⟨[], rfl⟩ hend
  have hgroups := takesBefore_importGroups h.imports
  obtain ⟨⟨after, hafter⟩, mid, hmid, himports⟩ := takes_separated hgroups hdeclsHead
    (refuses_import_of_decls fun decl hdecl => (hitems decl hdecl).opens)
  have hcontinues : continues (trailing emptyLine importsText (importGroups file.imports) ++
      (trailing emptyLine declText file.decls ++ ['\n'])) = false := by
    rw [hafter]
    rfl
  have hpackage := takes_packageClause h.package hcontinues
  have hgap : Skips (trailing emptyLine importsText (importGroups file.imports) ++
      (trailing emptyLine declText file.decls ++ ['\n']))
      (trailing emptyLine importsText (importGroups file.imports) ++
      (trailing emptyLine declText file.decls ++ ['\n'])) := by
    rw [hafter]
    exact skips_of_noGap rfl
  have hbody : Takes .spaced fileParts (fileText file) [] _ :=
    Takes.seq (takes_newlines rfl) (skips_of_noGap rfl)
      (Takes.seq hpackage hgap
        (Takes.seq himports hmid
          (Takes.seq hdecls hstop
            (Takes.seq takes_separator_end.opt (skips_of_noGap rfl) takes_endOfInput))))
  refine hbody.imp fun nodes hnodes => ?_
  obtain ⟨left, _, rfl, hleft, groups, _, rfl, hgroups, decls, _, rfl, hdecls, hlast⟩ :=
    hnodes.nil_left
  exact ⟨left, _, rfl, hleft, groups, _, rfl, hgroups, decls, _, rfl, hdecls, hlast.nil_left⟩

end GoStencil.Grammar

namespace GoStencil

open Grammar

/-! ## 4. Files from their texts -/

theorem toList_renderImports (specs : List ImportSpec) :
    (renderImports specs).toList =
      (importGroups specs).flatMap fun group => '\n' :: (importsText group ++ ['\n']) := by
  match specs with
  | [] => rfl
  | [spec] =>
    have htext : importsText [spec] = "import".toList ++ ' ' :: importText spec := rfl
    simp only [renderImports, importGroups, htext, String.toList_append,
      List.flatMap_singleton, List.append_assoc]
    rfl
  | first :: second :: specs =>
    have hlines : (indentedLines ((first :: second :: specs).map ImportSpec.render)).toList = _ :=
      toList_indentedLines importText first (second :: specs) (by rw [List.map_map]; rfl)
    rw [renderImports, String.toList_append, String.toList_append, hlines]
    · simp only [importGroups, importsText_group, List.flatMap_singleton, List.append_assoc,
        List.cons_append]
      rfl
    · nofun
    · nofun

theorem toList_line : "\n".toList = ['\n'] :=
  rfl

theorem toList_join_decls (decls : List Decl) :
    (String.join (decls.map fun decl => "\n" ++ decl.render ++ "\n")).toList =
      decls.flatMap fun decl => '\n' :: (declText decl ++ ['\n']) := by
  induction decls with
  | nil => rfl
  | cons decl decls ih =>
    simp only [List.map_cons, String.join_cons, String.toList_append, ih, List.flatMap_cons,
      toList_line, declText, List.append_assoc, List.cons_append, List.nil_append]

theorem toList_render_file (file : SourceFile) : file.render.toList = fileText file := by
  have hword : "package ".toList = "package".toList ++ [' '] := by decide
  have hitems : trailing emptyLine importsText (importGroups file.imports) ++
      (trailing emptyLine declText file.decls ++ ['\n']) =
        '\n' :: ((importGroups file.imports).flatMap
          (fun group => '\n' :: (importsText group ++ ['\n'])) ++
            file.decls.flatMap fun decl => '\n' :: (declText decl ++ ['\n'])) := by
    rw [← List.cons_append, flatMap_lines, List.append_assoc, List.singleton_append,
      flatMap_lines]
  unfold fileText
  simp only [hitems, SourceFile.render, String.toList_append, toList_renderImports,
    toList_join_decls, hword, toList_line, List.append_assoc, List.cons_append, List.nil_append]

theorem mapM_importsOf {groups : List (List ImportSpec)} {nodes : List Node}
    (h : Each WritesImports groups nodes) :
    (∀ node ∈ nodes, node.rule = .importDecl) ∧
      ∃ read, nodes.mapM (importsOf ·.children) = .ok read ∧
        read.flatten.map ImportSpec.bare = groups.flatten.map ImportSpec.bare := by
  induction groups generalizing nodes with
  | nil =>
    cases h
    exact ⟨nofun, [], rfl, rfl⟩
  | cons group groups ih =>
    obtain ⟨_, right, rfl, ⟨node, first, rfl, hrule, hnode, hfirst⟩, hright⟩ := h
    obtain ⟨hrules, read, hread, hrest⟩ := ih hright
    refine ⟨?_, first :: read, ?_, ?_⟩
    · intro other hother
      rcases List.mem_cons.mp hother with rfl | hother
      · exact hrule
      · exact hrules other hother
    · rw [List.singleton_append, List.mapM_cons, hnode, hread]
      rfl
    · rw [List.flatten_cons, List.flatten_cons, List.map_append, List.map_append, hfirst, hrest]

theorem mapM_listOfNode {decls : List Decl} {nodes : List Node}
    (h : Each (fun decl => WritesDecl decl.reread) decls nodes) :
    (∀ node ∈ nodes, node.rule ≠ .importDecl ∧ node.rule ≠ .endOfInput) ∧
      ∃ read, nodes.mapM Decl.listOfNode = .ok read ∧
        read.flatten.map Decl.bare = (decls.map Decl.reread).map Decl.bare := by
  induction decls generalizing nodes with
  | nil =>
    cases h
    exact ⟨nofun, [], rfl, rfl⟩
  | cons decl decls ih =>
    obtain ⟨_, right, rfl, ⟨node, first, rfl, hrule, hnode, hfirst⟩, hright⟩ := h
    obtain ⟨hrules, read, hread, hrest⟩ := ih hright
    refine ⟨?_, [first] :: read, ?_, ?_⟩
    · intro other hother
      rcases List.mem_cons.mp hother with rfl | hother
      · constructor
        · intro heq
          rw [heq] at hrule
          revert hrule
          decide
        · intro heq
          rw [heq] at hrule
          revert hrule
          decide
      · exact hrules other hother
    · rw [List.singleton_append, List.mapM_cons, hnode, hread]
      rfl
    · rw [List.flatten_cons, List.singleton_append, List.map_cons, hfirst, hrest, List.map_cons,
        List.map_cons]

theorem flatten_importGroups : ∀ specs : List ImportSpec, (importGroups specs).flatten = specs
  | [] => rfl
  | first :: specs => List.append_nil (first :: specs)

/-- The items of a file are told apart by their rules. -/
theorem ofItems_eq {package : String} {groups decls : List Node} {last : Node}
    (hgroups : ∀ node ∈ groups, node.rule = .importDecl)
    (hdecls : ∀ node ∈ decls, node.rule ≠ .importDecl ∧ node.rule ≠ .endOfInput)
    (hlast : last.rule = .endOfInput) :
    SourceFile.ofItems package (groups ++ (decls ++ [last])) = (do
      let imports ← groups.mapM (importsOf ·.children)
      let decls ← decls.mapM Decl.listOfNode
      return ⟨package, imports.flatten, decls.flatten, none⟩) := by
  have hgroup : ∀ node ∈ groups, decide (node.rule = .importDecl) = true := fun node hnode =>
    decide_eq_true (hgroups node hnode)
  have hdecl : ∀ node ∈ decls, decide (node.rule ≠ .endOfInput) = true := fun node hnode =>
    decide_eq_true (hdecls node hnode).2
  have hother : ¬ decide (last.rule ≠ .endOfInput) = true := by
    rw [hlast]
    decide
  have hnone : ∃ first rest, decls ++ [last] = first :: rest ∧
      ¬ decide (first.rule = .importDecl) = true := by
    cases decls with
    | nil =>
      refine ⟨last, [], rfl, ?_⟩
      rw [hlast]
      decide
    | cons first rest =>
      exact ⟨first, rest ++ [last], rfl, by simpa using (hdecls first List.mem_cons_self).1⟩
  obtain ⟨first, rest, hfirst, hrule⟩ := hnone
  have htakeFirst : (first :: rest).takeWhile (·.rule = .importDecl) = [] :=
    List.takeWhile_cons_of_neg hrule
  have hdropFirst : (first :: rest).dropWhile (·.rule = .importDecl) = first :: rest :=
    List.dropWhile_cons_of_neg hrule
  have htakeLast : [last].takeWhile (·.rule ≠ .endOfInput) = [] :=
    List.takeWhile_cons_of_neg hother
  have htake : (groups ++ (decls ++ [last])).takeWhile (·.rule = .importDecl) = groups := by
    rw [List.takeWhile_append_of_pos hgroup, hfirst, htakeFirst, List.append_nil]
  have hdrop : (groups ++ (decls ++ [last])).dropWhile (·.rule = .importDecl) =
      decls ++ [last] := by
    rw [List.dropWhile_append_of_pos hgroup, hfirst, hdropFirst]
  have hrest : (decls ++ [last]).takeWhile (·.rule ≠ .endOfInput) = decls := by
    rw [List.takeWhile_append_of_pos hdecl, htakeLast, List.append_nil]
  rw [SourceFile.ofItems, htake, hdrop, hrest]

/-- The nodes of the parts of a file make the file, but for the places. -/
theorem ofNode_of_writesFile {file : SourceFile} (start stop : Cursor) {nodes : List Node}
    (h : WritesFile file nodes) : ∃ read,
      SourceFile.ofNode ⟨.sourceFile, start, stop, nodes⟩ = .ok read ∧
        read.bare = file.reread.bare := by
  obtain ⟨_, _, rfl, ⟨start', stop', _, rfl, hname⟩, groups, _, rfl, hgroups, decls, _, rfl,
    hdecls, _, _, _, rfl, -⟩ := h
  obtain ⟨nameNode, rfl, -, hnameText⟩ := text_of_spells hname
  obtain ⟨himportRules, imports, himports, himportsSame⟩ := mapM_importsOf hgroups
  obtain ⟨hdeclRules, read, hread, hreadSame⟩ := mapM_listOfNode hdecls
  rw [flatten_importGroups] at himportsSame
  refine ⟨⟨file.package, imports.flatten, read.flatten, none⟩, ?_, ?_⟩
  · rw [List.singleton_append, SourceFile.ofNode, ofItems_eq himportRules hdeclRules rfl, himports,
      hread, hnameText]
    rfl
  · simp only [SourceFile.bare, SourceFile.reread, himportsSame, hreadSame]

/-- **Files are read back**: what is read from the text of a readable file is the file as it is
    reread, but for the places in the text. -/
theorem SourceFile.parse_render_file {file : SourceFile} (h : file.IsReadable)
    (hstreams : ∀ decl ∈ file.decls, decl.IsStreamRead) (sourceName : Option String) :
    ∃ read, SourceFile.parse file.render sourceName = .ok read ∧
      read.bare = file.reread.bare := by
  have hstart : Skips (fileText file) (fileText file) := skips_of_noGap rfl
  obtain ⟨_, offset, hgap, rfl⟩ := hstart 0
  obtain ⟨nodes, offset', hreads, hnodes⟩ := takes_file h hstreams offset
  have htext : Cursor.start file.render = ⟨0, fileText file⟩ := by
    rw [Cursor.start, toList_render_file]
  have hwhole : declarations.Reads .spaced (.call .sourceFile) ⟨0, fileText file⟩
      (some ([⟨.sourceFile, ⟨0, fileText file⟩, ⟨offset', []⟩, _⟩], ⟨offset', []⟩)) :=
    .call (.seq (.atStart .spaced ⟨0, fileText file⟩) hgap hreads)
  rw [← htext] at hwhole
  have hparse := parse_eq_some_iff.mpr ⟨_, hwhole⟩
  obtain ⟨read, hread, hsame⟩ := ofNode_of_writesFile (Cursor.start file.render)
    ⟨offset', []⟩ hnodes
  refine ⟨{ read with sourceName }, ?_, hsame⟩
  unfold SourceFile.parse
  rw [hparse]
  dsimp only
  rw [List.nil_append, hread]
  rfl

end GoStencil
