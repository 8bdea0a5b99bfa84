import GoStencil.SourceFile.Parser
import GoStencil.Proofs.TypeExpr.Tokens
import GoStencil.Proofs.TypeExpr.Total

/-!
# What becomes of a text

A text is rejected when the grammar does not read it to its end. From the tree of any other text a
file can be built, unless one of its import paths names no package: then the first such path is
refused.

* `fault?`: the error of a computation. `fault?_mapM`: a traversal fails with its first one.
* `Node.paths`: the import paths of a tree, in their order.
* `fault?_ofNode`: only they can be at fault when a file is built.
* `parse_outcome`: what becomes of a text that is read as a file, or as a type.
-/

namespace GoStencil

open Grammar

/-! ## 1. Faults -/

section Faults

variable {ε α β : Type}

/-- The error of a computation that fails. -/
def fault? : Except ε α → Option ε
  | .ok _ => none
  | .error cause => some cause

theorem fault?_eq_some_iff {result : Except ε α} {cause : ε} :
    fault? result = some cause ↔ result = .error cause := by
  cases result <;> simp [fault?]

theorem fault?_eq_none_iff {result : Except ε α} :
    fault? result = none ↔ ∃ a, result = .ok a := by
  cases result <;> simp [fault?]

/-- What cannot fail does not change the fault of what comes before it. -/
theorem fault?_bind {first : Except ε α} {next : α → Except ε β}
    (h : ∀ a, ∃ b, next a = .ok b) : fault? (first >>= next) = fault? first := by
  cases first with
  | error cause => rfl
  | ok a => exact fault?_eq_none_iff.mpr (h a)

/-- **A traversal fails as its first step that fails.** -/
theorem fault?_mapM {step : α → Except ε β} (as : List α) :
    fault? (as.mapM step) = as.findSome? fun a => fault? (step a) := by
  induction as with
  | nil => rfl
  | cons a as ih =>
    rw [List.mapM_cons, List.findSome?_cons, ← ih]
    cases step a with
    | error cause => rfl
    | ok b => exact fault?_bind fun bs => ⟨b :: bs, rfl⟩

/-- When each step fails with the first fault among some parts, so does the traversal. -/
theorem fault?_mapM_flatMap {γ : Type} {step : α → Except ε β} {check : γ → Option ε}
    {parts : α → List γ} {as : List α}
    (h : ∀ a ∈ as, fault? (step a) = (parts a).findSome? check) :
    fault? (as.mapM step) = (as.flatMap parts).findSome? check := by
  rw [fault?_mapM]
  induction as with
  | nil => rfl
  | cons a as ih =>
    obtain ⟨hfirst, hrest⟩ := List.forall_mem_cons.mp h
    rw [List.findSome?_cons, List.flatMap_cons, List.findSome?_append, hfirst, ih hrest]
    cases (parts a).findSome? check <;> rfl

theorem exists_mapM {step : α → Except ε β} {as : List α}
    (h : ∀ a ∈ as, ∃ b, step a = .ok b) : ∃ bs, as.mapM step = .ok bs := by
  rw [← fault?_eq_none_iff, fault?_mapM, List.findSome?_eq_none_iff]
  exact fun a hmem => fault?_eq_none_iff.mpr (h a hmem)

end Faults

/-! ## 2. The paths in a tree -/

namespace Grammar

variable {node tree path : Node}

mutual

/-- The import paths in a tree, in their order. -/
def Node.paths : Node → List Node
  | ⟨rule, start, stop, children⟩ =>
    if rule = .importPath then [⟨rule, start, stop, children⟩] else Node.pathsOfAll children

/-- The import paths in some trees, in their order. -/
def Node.pathsOfAll : List Node → List Node
  | [] => []
  | node :: rest => node.paths ++ Node.pathsOfAll rest

end

theorem Node.pathsOfAll_eq_flatMap : ∀ nodes : List Node,
    Node.pathsOfAll nodes = nodes.flatMap Node.paths
  | [] => rfl
  | node :: rest => by rw [Node.pathsOfAll, pathsOfAll_eq_flatMap rest, List.flatMap_cons]

theorem Node.paths_of_importPath (h : node.rule = .importPath) : node.paths = [node] := by
  obtain ⟨rule, start, stop, children⟩ := node
  rw [Node.paths, if_pos h]

theorem Node.paths_eq_flatMap (h : node.rule ≠ .importPath) :
    node.paths = node.children.flatMap Node.paths := by
  obtain ⟨rule, start, stop, children⟩ := node
  rw [Node.paths, if_neg h, Node.pathsOfAll_eq_flatMap]

theorem Node.IsRead.children_of_importPath (h : node.IsRead) (hrule : node.rule = .importPath) :
    node.children = [] :=
  h.fits_of hrule rfl

theorem Node.IsRead.mem_paths_iff (h : node.IsRead) :
    path ∈ node.paths ↔ node.Holds path ∧ path.rule = .importPath := by
  induction node using Node.induction with
  | step node ih =>
    rw [Node.holds_iff]
    by_cases hrule : node.rule = .importPath
    · rw [Node.paths_of_importPath hrule, h.children_of_importPath hrule, List.mem_singleton]
      constructor
      · rintro rfl
        exact ⟨.inl rfl, hrule⟩
      · rintro ⟨rfl | ⟨_, hmem, -⟩, -⟩
        · rfl
        · cases hmem
    · rw [Node.paths_eq_flatMap hrule, List.mem_flatMap]
      constructor
      · rintro ⟨child, hmem, hpath⟩
        obtain ⟨hholds, hpath⟩ := (ih child hmem (h.child child hmem)).mp hpath
        exact ⟨.inr ⟨child, hmem, hholds⟩, hpath⟩
      · rintro ⟨rfl | ⟨child, hmem, hholds⟩, hpath⟩
        · exact absurd hpath hrule
        · exact ⟨child, hmem, (ih child hmem (h.child child hmem)).mpr ⟨hholds, hpath⟩⟩

theorem Node.IsRead.pairwise_paths (h : node.IsRead) : node.paths.Pairwise Node.Precedes := by
  induction node using Node.induction with
  | step node ih =>
    by_cases hrule : node.rule = .importPath
    · rw [Node.paths_of_importPath hrule]
      exact List.pairwise_singleton _ _
    · rw [Node.paths_eq_flatMap hrule, List.pairwise_flatMap]
      refine ⟨fun child hmem => ih child hmem (h.child child hmem), ?_⟩
      refine h.pairwise.imp_of_mem fun {first second} hfirst hsecond hprecedes inner hinner
        outer houter => ?_
      have hfirst := h.child first hfirst
      have hsecond := h.child second hsecond
      exact hfirst.precedes hsecond hprecedes (hfirst.mem_paths_iff.mp hinner).1
        (hsecond.mem_paths_iff.mp houter).1

/-- The rules that stand over no import path. -/
def rulesBesidePaths : List Rule :=
  Rule.all.filter fun rule =>
    ¬ rule ∈ [Rule.sourceFile, .importDecl, .importGroup, .importSpec, .importPath]

theorem Node.IsRead.paths_eq_nil (h : node.IsRead) (hrule : node.rule ∈ rulesBesidePaths) :
    node.paths = [] := by
  refine List.eq_nil_iff_forall_not_mem.mpr fun path hmem => ?_
  obtain ⟨hholds, hpath⟩ := h.mem_paths_iff.mp hmem
  have hclosed : ∀ rule ∈ rulesBesidePaths, ∀ other ∈ (ruleBody rule).calls,
      other ∈ rulesBesidePaths := by
    decide +kernel
  have hmem := h.rule_mem_of_holds hclosed hrule hholds
  rw [hpath] at hmem
  revert hmem
  decide

end Grammar

/-! ## 3. Declarations -/

section Declarations

variable {node : Node}

theorem exists_typeSpec (h : node.IsRead) (hrule : node.rule = .typeSpec) :
    ∃ decl, TypeDecl.ofNode node = .ok decl := by
  obtain ⟨rule, start, stop, children⟩ := node
  cases hrule
  have hfits : Fits [.one [.identifier], .opt [.aliasMarker], .one [.typeExpr]] children :=
    h.fits_of rfl rfl
  obtain ⟨name, _, rfl, -, hfits⟩ := hfits
  rcases hfits with ⟨⟨_, _, _, _⟩, _, rfl, htype, rfl⟩ |
    ⟨⟨_, _, _, _⟩, _, rfl, hmarker, type, _, rfl, htype, rfl⟩
  · cases List.mem_singleton.mp htype
    obtain ⟨type, htype⟩ := h.isReady.types _ (Node.Holds.self.child
      (List.mem_cons_of_mem _ List.mem_cons_self)) rfl
    exact ⟨_, by rw [TypeDecl.ofNode, htype]; rfl⟩
  · cases List.mem_singleton.mp hmarker
    obtain ⟨type, htype⟩ := h.isReady.types _ (Node.Holds.self.child
      (List.mem_cons_of_mem _ (List.mem_cons_of_mem _ List.mem_cons_self)))
      (List.mem_singleton.mp htype)
    exact ⟨_, by rw [TypeDecl.ofNode, htype]; rfl⟩

theorem exists_typeDecls (h : node.IsRead) (hrule : node.rule = .typeDecl) :
    ∃ decls, typeDeclsOf node.children = .ok decls := by
  have hfits : Fits [.one [.typeGroup, .typeSpec]] node.children := h.fits_of hrule rfl
  obtain ⟨⟨rule, start, stop, specs⟩, rest, hchildren, hform, rfl⟩ := hfits
  have hform' := h.child _ (hchildren ▸ List.mem_cons_self)
  rw [hchildren]
  rcases List.mem_pair.mp hform with rfl | rfl
  · have hfits : Fits [.many [.typeSpec]] specs := hform'.fits_of rfl rfl
    obtain ⟨first, _, rfl, hrules, rfl⟩ := hfits
    rw [typeDeclsOf]
    refine exists_mapM fun spec hmem => ?_
    rw [List.append_nil] at hmem
    exact exists_typeSpec (hform'.child spec (List.mem_append_left _ hmem))
      (List.mem_singleton.mp (hrules spec hmem))
  · rw [typeDeclsOf]
    · exact exists_mapM (List.forall_mem_singleton.mpr (exists_typeSpec hform' rfl))
    · nofun

theorem exists_signatureOf (h : node.IsRead) (hrule : node.rule = .signature) :
    ∃ params results, signatureOf node = .ok (params, results) := by
  obtain ⟨rule, start, stop, children⟩ := node
  obtain ⟨_, _, _, _, _, params, results, hchildren, hparams, hresults⟩ :=
    h.isReady.exists_signature hrule
  cases hchildren
  exact ⟨params, results, by rw [signatureOf, hparams, hresults]; rfl⟩

theorem exists_funcDecl (h : node.IsRead) (hrule : node.rule = .funcDecl) (span : Span) :
    ∃ decl, FuncDecl.ofParts span node.children = .ok decl := by
  have hfits : Fits [.opt [.receiver], .one [.identifier], .one [.signature], .opt [.funcBody]]
      node.children := h.fits_of hrule rfl
  rcases hfits with ⟨⟨_, _, _, _⟩, _, hchildren, hname, signature, body, rfl, hsignature, -⟩ |
    ⟨⟨_, _, _, parts⟩, _, hchildren, hreceiver, name, _, rfl, -, signature, body, rfl, hsignature,
      -⟩
  · have hchild := h.child signature (hchildren ▸ List.mem_cons_of_mem _ List.mem_cons_self)
    obtain ⟨params, results, hsignature⟩ :=
      exists_signatureOf hchild (List.mem_singleton.mp hsignature)
    cases List.mem_singleton.mp hname
    rw [hchildren, FuncDecl.ofParts, hsignature]
    · exact ⟨_, rfl⟩
    · intro _ _ _ _ _ _ _ _ _ hreceiver
      cases hreceiver
  · have hchild := h.child signature (hchildren ▸ List.mem_cons_of_mem _
      (List.mem_cons_of_mem _ List.mem_cons_self))
    obtain ⟨params, results, hsignature⟩ :=
      exists_signatureOf hchild (List.mem_singleton.mp hsignature)
    cases List.mem_singleton.mp hreceiver
    have hreceiver := h.child _ (hchildren ▸ List.mem_cons_self)
    have hfits : Fits [.one [.parameters]] parts := hreceiver.fits_of rfl rfl
    obtain ⟨⟨_, _, _, list⟩, _, rfl, hlist, rfl⟩ := hfits
    obtain ⟨receiver, hfields⟩ := (hreceiver.child _ List.mem_cons_self).isReady.exists_parameters
      (List.mem_singleton.mp hlist)
    rw [hchildren]
    exact ⟨_, by rw [FuncDecl.ofParts, hfields, hsignature]; rfl⟩

/-- What a stream on a line consists of. -/
def lineParts : List Rule :=
  [.bodyIdent, .parenGroup, .braceGroup, .bracketGroup, .lineText]

theorem exists_valueDecl (h : node.IsRead) (hrule : node.rule = .valueDecl) (span : Span) :
    ∃ decl, ValueDecl.ofParts span node.children = .ok decl := by
  have hfits : Fits [.one [.valueKeyword], .one lineParts, .many lineParts] node.children :=
    h.fits_of hrule rfl
  obtain ⟨keyword, parts, hchildren, -, -⟩ := hfits
  rw [hchildren]
  exact ⟨_, rfl⟩

/-- **Every tree of a declaration is one.** -/
theorem exists_decls (h : node.IsRead)
    (hrule : node.rule ∈ [Rule.typeDecl, .funcDecl, .valueDecl]) :
    ∃ decls, Decl.listOfNode node = .ok decls := by
  unfold Decl.listOfNode
  simp only [List.mem_cons, List.not_mem_nil, or_false] at hrule
  rcases hrule with hrule | hrule | hrule
  · obtain ⟨decls, hdecls⟩ := exists_typeDecls h hrule
    rw [hrule, hdecls]
    exact ⟨_, rfl⟩
  · obtain ⟨decl, hdecl⟩ := exists_funcDecl h hrule node.span
    rw [hrule, hdecl]
    exact ⟨_, rfl⟩
  · obtain ⟨decl, hdecl⟩ := exists_valueDecl h hrule node.span
    rw [hrule, hdecl]
    exact ⟨_, rfl⟩

end Declarations

/-! ## 4. Imports -/

/-- Whether a node is an import path that names no package: between its quotes stands nothing, or a
    blank. -/
def Grammar.Node.IsFaultyPath (node : Node) : Prop :=
  node.rule = .importPath ∧ ∃ quote path, node.chars = quote :: (path ++ [quote]) ∧
    (path = [] ∨ ∃ c ∈ path, Text.isBlank c = true)

section Imports

variable {node : Node}

/-- An import path stands between quotes. -/
theorem exists_quoted (h : node.IsRead) (hrule : node.rule = .importPath) :
    ∃ quote path, node.chars = quote :: (path ++ [quote]) ∧
      node.start.Reaches node.stop node.chars := by
  obtain ⟨mode, hmode, h⟩ := h
  obtain ⟨_, -, hbody⟩ := h.of_call hmode
  rw [hrule] at hbody
  obtain ⟨path, ⟨hreaches, -⟩ | ⟨hreaches, -⟩⟩ := exists_literal hbody
  · have hchars : node.chars = '"' :: (path ++ ['"']) := hreaches.upTo
    exact ⟨'"', path, hchars, hchars ▸ hreaches⟩
  · have hchars : node.chars = '\x60' :: (path ++ ['\x60']) := hreaches.upTo
    exact ⟨'\x60', path, hchars, hchars ▸ hreaches⟩

/-- **A path is refused exactly when it names no package.** -/
theorem fault?_importPathOf (h : node.IsRead) (hrule : node.rule = .importPath)
    {cause : ParseError} : fault? (importPathOf node) = some cause ↔
      node.IsFaultyPath ∧ cause = .invalidImportPath node.text node.span := by
  obtain ⟨quote, path, hchars, -⟩ := exists_quoted h hrule
  have hfaulty : node.IsFaultyPath ↔ (path.isEmpty || path.any Text.isBlank) = true := by
    rw [Bool.or_eq_true, List.isEmpty_iff, List.any_eq_true]
    constructor
    · rintro ⟨-, other, inner, hinner, hfault⟩
      rw [hchars] at hinner
      have hsame := congrArg List.dropLast (List.cons.inj hinner).2
      rw [List.dropLast_concat, List.dropLast_concat] at hsame
      exact hsame ▸ hfault
    · exact fun hfault => ⟨hrule, quote, path, hchars, hfault⟩
  rw [hfaulty]
  unfold importPathOf
  rw [hchars, List.tail_cons, List.dropLast_concat]
  dsimp only
  split
  · rename_i hfault
    simp only [fault?, Option.some.injEq, hfault, true_and]
    exact eq_comm
  · rename_i hfault
    simp only [fault?, hfault, reduceCtorEq, false_and]

/-- The first fault among the import paths of a tree. -/
def Grammar.Node.firstFault? (tree : Node) : Option ParseError :=
  tree.paths.findSome? fun path => fault? (importPathOf path)

theorem fault?_importSpec (h : node.IsRead) (hrule : node.rule = .importSpec) :
    fault? (ImportSpec.ofNode node) = node.firstFault? := by
  have hpaths : node.paths = node.children.flatMap Node.paths :=
    Node.paths_eq_flatMap (hrule ▸ nofun)
  rw [Node.firstFault?, hpaths]
  obtain ⟨rule, start, stop, children⟩ := node
  cases hrule
  have hfits : Fits [.opt [.importName], .one [.importPath]] children := h.fits_of rfl rfl
  rcases hfits with ⟨path, _, rfl, hpath, rfl⟩ | ⟨name, _, rfl, hname, path, _, rfl, hpath, rfl⟩
  · rw [List.flatMap_singleton, Node.paths_of_importPath (List.mem_singleton.mp hpath),
      List.findSome?_singleton, ImportSpec.ofNode]
    exact fault?_bind fun path => ⟨_, rfl⟩
  · have hname := (h.child name List.mem_cons_self).paths_eq_nil
      (List.mem_singleton.mp hname ▸ by decide)
    rw [List.flatMap_cons, hname, List.nil_append, List.flatMap_singleton,
      Node.paths_of_importPath (List.mem_singleton.mp hpath), List.findSome?_singleton,
      ImportSpec.ofNode]
    exact fault?_bind fun path => ⟨_, rfl⟩

theorem fault?_imports (h : node.IsRead) (hrule : node.rule = .importDecl) :
    fault? (importsOf node.children) = node.firstFault? := by
  rw [Node.firstFault?, Node.paths_eq_flatMap (hrule ▸ nofun)]
  have hfits : Fits [.one [.importGroup, .importSpec]] node.children := h.fits_of hrule rfl
  obtain ⟨⟨rule, start, stop, specs⟩, _, hchildren, hform, rfl⟩ := hfits
  have hform' := h.child _ (hchildren ▸ List.mem_cons_self)
  rw [hchildren, List.flatMap_singleton]
  rcases List.mem_pair.mp hform with rfl | rfl
  · have hfits : Fits [.many [.importSpec]] specs := hform'.fits_of rfl rfl
    obtain ⟨first, _, rfl, hrules, rfl⟩ := hfits
    rw [importsOf, Node.paths_eq_flatMap (show Rule.importGroup ≠ .importPath from nofun)]
    refine fault?_mapM_flatMap fun spec hmem => ?_
    rw [List.append_nil] at hmem
    exact fault?_importSpec (hform'.child spec (List.mem_append_left _ hmem))
      (List.mem_singleton.mp (hrules spec hmem))
  · rw [importsOf]
    · rw [← List.flatMap_singleton Node.paths]
      exact fault?_mapM_flatMap (List.forall_mem_singleton.mpr (fault?_importSpec hform' rfl))
    · nofun

end Imports

/-! ## 5. Files -/

section Files

variable {tree : Node}

/-- A list is cut where a property ends. -/
theorem takeWhile_and_dropWhile {α : Type} {p : α → Bool} {first second : List α}
    (hfirst : ∀ a ∈ first, p a = true) (hsecond : ∀ a ∈ second, p a = false) :
    (first ++ second).takeWhile p = first ∧ (first ++ second).dropWhile p = second := by
  rw [List.takeWhile_append_of_pos hfirst, List.dropWhile_append_of_pos hfirst]
  cases second with
  | nil => exact ⟨List.append_nil _, rfl⟩
  | cons a rest =>
    have ha := Bool.eq_false_iff.mp (hsecond a List.mem_cons_self)
    rw [List.takeWhile_cons_of_neg ha, List.dropWhile_cons_of_neg ha]
    exact ⟨List.append_nil _, rfl⟩

/-- The items of a file are its imports, its declarations and the end. -/
theorem fault?_ofItems {package : String} {imports decls : List Node} {last : Node}
    (himports : ∀ node ∈ imports, node.rule = .importDecl)
    (hdecls : ∀ node ∈ decls, node.rule ∈ [Rule.typeDecl, .funcDecl, .valueDecl])
    (hlast : last.rule = .endOfInput)
    (hbuilt : ∀ node ∈ decls, ∃ built, Decl.listOfNode node = .ok built) :
    fault? (SourceFile.ofItems package (imports ++ (decls ++ [last]))) =
      fault? (imports.mapM fun node => importsOf node.children) := by
  have hrest : ∀ node ∈ decls ++ [last], node.rule ≠ .importDecl := by
    intro node hmem hrule
    rcases List.mem_append.mp hmem with hmem | hmem
    · exact absurd (hrule ▸ hdecls node hmem) (by decide)
    · exact absurd ((List.mem_singleton.mp hmem ▸ hrule).symm.trans hlast) (by decide)
  have hdecl : ∀ node ∈ decls, node.rule ≠ .endOfInput := fun node hmem hrule =>
    absurd (hrule ▸ hdecls node hmem) (by decide)
  obtain ⟨htake, hdrop⟩ := takeWhile_and_dropWhile (p := fun node => node.rule = .importDecl)
    (fun node hmem => decide_eq_true (himports node hmem))
    fun node hmem => decide_eq_false (hrest node hmem)
  obtain ⟨htakeDecls, -⟩ := takeWhile_and_dropWhile (p := fun node => node.rule ≠ .endOfInput)
    (fun node hmem => decide_eq_true (hdecl node hmem))
    (List.forall_mem_singleton.mpr (decide_eq_false (not_not_intro hlast)))
  obtain ⟨built, hbuilt⟩ := exists_mapM hbuilt
  unfold SourceFile.ofItems
  dsimp only
  rw [htake, hdrop, htakeDecls, hbuilt]
  exact fault?_bind fun specs => ⟨_, rfl⟩

/-- **Only import paths are at fault when a file is built.** -/
theorem fault?_ofNode (h : tree.IsRead) (hrule : tree.rule = .sourceFile) :
    fault? (SourceFile.ofNode tree) = tree.firstFault? := by
  rw [Node.firstFault?, Node.paths_eq_flatMap (hrule ▸ nofun)]
  obtain ⟨rule, start, stop, children⟩ := tree
  cases hrule
  have hfits : Fits [.one [.packageClause], .many [.importDecl],
      .many [.typeDecl, .funcDecl, .valueDecl], .one [.endOfInput]] children := h.fits_of rfl rfl
  obtain ⟨⟨_, _, _, parts⟩, _, rfl, hclause, imports, _, rfl, himports, decls, _, rfl, hdecls,
    last, _, rfl, hlast, rfl⟩ := hfits
  cases List.mem_singleton.mp hclause
  have hclause := h.child _ List.mem_cons_self
  have hread : ∀ node ∈ imports ++ (decls ++ [last]), node.IsRead := fun node hmem =>
    h.child node (List.mem_cons_of_mem _ hmem)
  have himports : ∀ node ∈ imports, node.rule = .importDecl := fun node hmem =>
    List.mem_singleton.mp (himports node hmem)
  have hlast : last.rule = .endOfInput := List.mem_singleton.mp hlast
  -- declarations, and what stands around them, are over no paths
  have hdeclPaths : decls.flatMap Node.paths = [] := List.flatMap_eq_nil_iff.mpr fun node hmem =>
    (hread node (List.mem_append_right _ (List.mem_append_left _ hmem))).paths_eq_nil
      ((show [Rule.typeDecl, .funcDecl, .valueDecl] ⊆ rulesBesidePaths by decide)
        (hdecls node hmem))
  have hlastPaths := (hread last (List.mem_append_right _ (List.mem_append_right _
    List.mem_cons_self))).paths_eq_nil (hlast ▸ by decide)
  have hclausePaths := hclause.paths_eq_nil (show Rule.packageClause ∈ rulesBesidePaths by decide)
  rw [List.flatMap_cons, hclausePaths, List.nil_append, List.flatMap_append, List.flatMap_append,
    hdeclPaths, List.flatMap_singleton, hlastPaths, List.nil_append, List.append_nil]
  have hfits : Fits [.one [.identifier]] parts := hclause.fits_of rfl rfl
  obtain ⟨name, _, rfl, -, rfl⟩ := hfits
  rw [SourceFile.ofNode, fault?_ofItems himports hdecls hlast fun node hmem =>
    exists_decls (hread node (List.mem_append_right _ (List.mem_append_left _ hmem)))
      (hdecls node hmem)]
  exact fault?_mapM_flatMap fun node hmem =>
    fault?_imports (hread node (List.mem_append_left _ hmem)) (himports node hmem)

/-- Whether a node is the first import path of a tree that names no package. -/
structure Grammar.Node.IsFirstFault (tree path : Node) : Prop where
  holds : tree.Holds path
  faulty : path.IsFaultyPath
  first : ∀ other, tree.Holds other → other.IsFaultyPath →
    other = path ∨ path.start.offset < other.start.offset

theorem start_lt_stop (h : tree.IsRead) (hrule : tree.rule = .importPath) :
    tree.start.offset < tree.stop.offset := by
  obtain ⟨quote, path, hchars, hreaches⟩ := exists_quoted h hrule
  rw [hreaches.2, hchars, Cursor.byteLength]
  have hsize := quote.utf8Size_pos
  omega

theorem Grammar.Node.IsFirstFault.unique {path other : Node} (h : tree.IsFirstFault path)
    (h' : tree.IsFirstFault other) : path = other := by
  rcases h.first other h'.holds h'.faulty with e | hlt
  · exact e.symm
  · rcases h'.first path h.holds h.faulty with e | hlt'
    · exact e
    · exact absurd hlt (Nat.lt_asymm hlt')

theorem exists_isFirstFault (h : tree.IsRead) {cause : ParseError}
    (hfault : tree.firstFault? = some cause) :
    ∃ path, tree.IsFirstFault path ∧ cause = .invalidImportPath path.text path.span := by
  have hpaths : ∀ path ∈ tree.paths, path.IsRead ∧ path.rule = .importPath := fun path hmem =>
    have hpath := h.mem_paths_iff.mp hmem
    ⟨h.of_holds hpath.1, hpath.2⟩
  obtain ⟨before, path, after, hsplit, hcause, hbefore⟩ := List.findSome?_eq_some_iff.mp hfault
  have hmem : path ∈ tree.paths := hsplit ▸ List.mem_append_right _ List.mem_cons_self
  obtain ⟨hread, hrule⟩ := hpaths path hmem
  obtain ⟨hfaulty, rfl⟩ := (fault?_importPathOf hread hrule).mp hcause
  refine ⟨path, ⟨(h.mem_paths_iff.mp hmem).1, hfaulty, fun other hother hotherFaulty => ?_⟩, rfl⟩
  have hotherMem := h.mem_paths_iff.mpr ⟨hother, hotherFaulty.1⟩
  obtain ⟨hotherRead, hotherRule⟩ := hpaths other hotherMem
  rw [hsplit] at hotherMem
  rcases List.mem_append.mp hotherMem with hmem | hmem
  · -- the paths before the first fault are without one
    have hsome := (fault?_importPathOf hotherRead hotherRule).mpr ⟨hotherFaulty, rfl⟩
    rw [hbefore other hmem] at hsome
    cases hsome
  · rcases List.mem_cons.mp hmem with rfl | hmem
    · exact .inl rfl
    · have hordered := hsplit ▸ h.pairwise_paths
      have hprecedes : path.Precedes other :=
        (List.pairwise_cons.mp (List.pairwise_append.mp hordered).2.1).1 other hmem
      exact .inr (Nat.lt_of_lt_of_le (start_lt_stop hread hrule) hprecedes)

/-- A tree over a faulty path is at fault. -/
theorem exists_firstFault? (h : tree.IsRead) {path : Node} (hholds : tree.Holds path)
    (hfaulty : path.IsFaultyPath) : ∃ cause, tree.firstFault? = some cause := by
  have hmem := h.mem_paths_iff.mpr ⟨hholds, hfaulty.1⟩
  have hcause := (fault?_importPathOf (h.of_holds hholds) hfaulty.1).mpr ⟨hfaulty, rfl⟩
  refine Option.ne_none_iff_exists'.mp fun hnone => ?_
  rw [List.findSome?_eq_none_iff.mp hnone path hmem] at hcause
  cases hcause

/-- **The first fault of a tree is that of its first faulty path.** -/
theorem firstFault?_eq_some_iff (h : tree.IsRead) {cause : ParseError} :
    tree.firstFault? = some cause ↔
      ∃ path, tree.IsFirstFault path ∧ cause = .invalidImportPath path.text path.span := by
  refine ⟨exists_isFirstFault h, ?_⟩
  rintro ⟨path, hfirst, rfl⟩
  obtain ⟨cause, hcause⟩ := exists_firstFault? h hfirst.holds hfirst.faulty
  obtain ⟨other, hother, rfl⟩ := exists_isFirstFault h hcause
  rw [hcause, hother.unique hfirst]

end Files

/-! ## 6. Texts -/

/-- What the result of reading a text as a file says about the text. -/
structure SourceFile.IsOutcome (text : String) (result : Parsed SourceFile) : Prop where
  /-- The text is rejected exactly when the grammar does not read it to its end. -/
  rejected : result = .error .rejected ↔ ¬ Accepts .sourceFile text
  /-- A path is refused exactly when some path in a text that the grammar reads names no package. -/
  refused : (∃ quoted span, result = .error (.invalidImportPath quoted span)) ↔
    ∃ tree path, IsTree .sourceFile text tree ∧ tree.Holds path ∧ path.IsFaultyPath
  /-- It is the first such path, and is named as it is written, with its place. -/
  first : ∀ quoted span, result = .error (.invalidImportPath quoted span) ↔
    ∃ tree path, IsTree .sourceFile text tree ∧ tree.IsFirstFault path ∧
      quoted = path.text ∧ span = path.span
  /-- No tree is refused for its form. -/
  formed : ∀ rule, result ≠ .error (.malformedTree rule)

/-- What the result of reading a text as a type says about the text. -/
structure TypeExpr.IsOutcome (text : String) (result : Parsed TypeExpr) : Prop where
  rejected : result = .error .rejected ↔ ¬ Accepts .typeExprOnly text
  read : result ≠ .error .rejected → ∃ type, result = .ok type

theorem SourceFile.fault?_parse {text : String} (sourceName : Option String) {tree : Node}
    (htree : IsTree .sourceFile text tree) :
    fault? (SourceFile.parse text sourceName) = tree.firstFault? := by
  unfold SourceFile.parse
  rw [(parse_eq_some_iff_isTree rfl).mpr htree, ← fault?_ofNode htree.isRead htree.rule_eq]
  exact fault?_bind fun file => ⟨_, rfl⟩

theorem SourceFile.parse_eq_error_iff {text : String} {sourceName : Option String} {tree : Node}
    (htree : IsTree .sourceFile text tree) {cause : ParseError} :
    SourceFile.parse text sourceName = .error cause ↔
      ∃ path, tree.IsFirstFault path ∧ cause = .invalidImportPath path.text path.span := by
  rw [← fault?_eq_some_iff, SourceFile.fault?_parse sourceName htree,
    firstFault?_eq_some_iff htree.isRead]

theorem SourceFile.isOutcome_parse (text : String) (sourceName : Option String) :
    SourceFile.IsOutcome text (SourceFile.parse text sourceName) := by
  by_cases haccepts : Accepts .sourceFile text
  · obtain ⟨tree, htree⟩ := haccepts
    have herror : ∀ cause, SourceFile.parse text sourceName = .error cause ↔ _ := fun _ =>
      parse_eq_error_iff htree
    exact {
      rejected := by
        refine iff_of_false (fun h => ?_) (not_not_intro ⟨tree, htree⟩)
        obtain ⟨_, -, e⟩ := (herror _).mp h
        cases e
      refused := by
        constructor
        · rintro ⟨quoted, span, h⟩
          obtain ⟨path, hfirst, -⟩ := (herror _).mp h
          exact ⟨tree, path, htree, hfirst.holds, hfirst.faulty⟩
        · rintro ⟨other, path, hother, hholds, hfaulty⟩
          rw [hother.unique htree] at hholds
          obtain ⟨cause, hcause⟩ := exists_firstFault? htree.isRead hholds hfaulty
          obtain ⟨first, hfirst, rfl⟩ := exists_isFirstFault htree.isRead hcause
          exact ⟨_, _, (herror _).mpr ⟨first, hfirst, rfl⟩⟩
      first := by
        intro quoted span
        constructor
        · intro h
          obtain ⟨path, hfirst, e⟩ := (herror _).mp h
          cases e
          exact ⟨tree, path, htree, hfirst, rfl, rfl⟩
        · rintro ⟨other, path, hother, hfirst, rfl, rfl⟩
          rw [hother.unique htree] at hfirst
          exact (herror _).mpr ⟨path, hfirst, rfl⟩
      formed := by
        intro rule h
        obtain ⟨_, -, e⟩ := (herror _).mp h
        cases e }
  · have hrejected : SourceFile.parse text sourceName = .error .rejected := by
      unfold SourceFile.parse
      rw [(parse_eq_none_iff rfl).mpr haccepts]
    rw [hrejected]
    exact {
      rejected := iff_of_true rfl haccepts
      refused := iff_of_false nofun fun ⟨tree, _, htree, _⟩ => haccepts ⟨tree, htree⟩
      first := fun _ _ => iff_of_false nofun fun ⟨tree, _, htree, _⟩ => haccepts ⟨tree, htree⟩
      formed := nofun }

theorem TypeExpr.isOutcome_parse (text : String) :
    TypeExpr.IsOutcome text (TypeExpr.parse text) := by
  unfold TypeExpr.parse
  by_cases haccepts : Accepts .typeExprOnly text
  · obtain ⟨tree, htree⟩ := haccepts
    have hready := htree.isRead.isReady
    have hrule := htree.rule_eq
    rw [(parse_eq_some_iff_isTree rfl).mpr htree]
    obtain ⟨rule, start, stop, children⟩ := tree
    cases hrule
    have hfits : Fits [.one [.typeExpr], .one [.endOfInput]] children :=
      hready.read.fits_of rfl rfl
    obtain ⟨inner, _, type, rfl, htype, -⟩ := hready.exists_type hfits
    dsimp only
    rw [htype]
    exact ⟨iff_of_false nofun (not_not_intro ⟨_, htree⟩), fun _ => ⟨type, rfl⟩⟩
  · rw [(parse_eq_none_iff rfl).mpr haccepts]
    exact ⟨iff_of_true rfl haccepts, fun h => absurd rfl h⟩

/-- **What becomes of a text.** As a file it is rejected, or refused for its first import path that
    names no package, or read; as a type it is rejected or read. Whatever is read comes from a tree
    in which the children of every node fill the slots of its rule. -/
theorem parse_outcome (text : String) :
    (∀ sourceName, SourceFile.IsOutcome text (SourceFile.parse text sourceName)) ∧
      TypeExpr.IsOutcome text (TypeExpr.parse text) ∧
      ∀ rule tree, IsTree rule text tree →
        ∀ node, tree.Holds node → Fits node.rule.slots node.children :=
  ⟨SourceFile.isOutcome_parse text, TypeExpr.isOutcome_parse text, fun _ _ htree _ hholds =>
    (htree.isRead.of_holds hholds).fits⟩

/-- Three imports. The second has no path, and there is a blank in that of the third. -/
def importsText : String :=
  "package p\n\nimport (\n\t\"fmt\"\n\tm \"\"\n\t\x60a b\x60\n)\n"

theorem parse_outcome_imports :
    SourceFile.parse importsText none = .error (.invalidImportPath "\"\"" ⟨30, 32⟩) ∧
      ∃ tree path, IsTree .sourceFile importsText tree ∧ tree.IsFirstFault path ∧
        "\"\"" = path.text ∧ (⟨30, 32⟩ : Span) = path.span ∧
        Fits tree.rule.slots tree.children := by
  obtain ⟨hfile, -, htrees⟩ := parse_outcome importsText
  have hparse : SourceFile.parse importsText none =
      .error (.invalidImportPath "\"\"" ⟨30, 32⟩) := by
    decide +kernel
  obtain ⟨tree, path, htree, hfirst, hquoted, hspan⟩ := ((hfile none).first _ _).mp hparse
  exact ⟨hparse, tree, path, htree, hfirst, hquoted, hspan, htrees _ tree htree tree .self⟩

end GoStencil
