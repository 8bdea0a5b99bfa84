import GoStencil.Proofs.SourceFile.Readable
import GoStencil.Proofs.SourceFile.Streams
import GoStencil.Proofs.TypeExpr.ParsedLists

/-!
# Files that are parsed

* `SourceFile.IsParsed`: the shape of a file that has been read.
* `SourceFile.isParsed_of_parse`: every file that is read has it.
* `SourceFile.isWritable`: what else it must be like to be written as itself.
* `SourceFile.IsParsed.isReadable_and_reread`: then it can be read again, as itself.
-/

namespace GoStencil

open Grammar Pattern

/-! ## 1. The shape of files -/

/-- Whether an import has a name that can be one, and a path without blanks. -/
structure ImportSpec.IsParsed (spec : ImportSpec) : Prop where
  name : ∀ ident, spec.alias? = some ident → ident = "." ∨ isName ident = true
  path : spec.path.toList ≠ [] ∧ spec.path.toList.any Text.isBlank = false

/-- Whether the names and types of a declaration are as the grammar builds them. -/
inductive Decl.IsParsed : Decl → Prop where
  | type {decl : TypeDecl} (hname : isName decl.name = true) (htype : decl.type.IsParsed) :
      IsParsed (.type decl)
  | func {decl : FuncDecl} (hname : isName decl.name = true)
      (hreceiver : ∀ receiver, decl.receiver = some receiver → receiver.IsParsed)
      (hparams : decl.params.IsParsed) (hresults : decl.results.IsParsed) : IsParsed (.func decl)
  | value (decl : ValueDecl) : IsParsed (.value decl)

/-- Whether a file is as the grammar builds it. -/
structure SourceFile.IsParsed (file : SourceFile) : Prop where
  package : isName file.package = true
  imports : ∀ spec ∈ file.imports, spec.IsParsed
  decls : ∀ decl ∈ file.decls, decl.IsParsed

/-! ## 2. Imports -/

section Parts

variable {node : Node} {bound : Nat} {cursor last : Cursor} {nodes children : List Node}

theorem path_of_importPathOf {path : String} (h : importPathOf node = .ok path) :
    path.toList ≠ [] ∧ path.toList.any Text.isBlank = false := by
  unfold importPathOf at h
  dsimp only at h
  split at h
  · cases h
  · rename_i hpath
    cases h
    rw [String.toList_ofList]
    obtain ⟨hne, hblank⟩ := Bool.or_eq_false_iff.mp (Bool.not_eq_true _ ▸ hpath)
    exact ⟨List.isEmpty_eq_false_iff.mp hne, hblank⟩

/-- The name of an import is a dot or an identifier. -/
theorem text_of_importName (h : IsReadBy .spaced .importName bound node) :
    node.text = "." ∨ isName node.text = true := by
  obtain ⟨_, -, hbody⟩ := h.exists_children nofun
  rcases hbody.of_alt with hdot | ⟨-, hident⟩
  · obtain ⟨_, rfl, hread⟩ := hdot.of_call nofun
    have hreaches := hread.of_literal.2
    rw [Node.text, Node.chars, hreaches.upTo]
    exact .inl rfl
  · obtain ⟨ident, rfl, hstart, hstop, hname⟩ := hident.exists_one nofun h.length_lt
    have htext : node.text = ident.text := by
      rw [Node.text, Node.chars, Node.text, Node.chars, hstart, hstop]
    rw [htext]
    exact .inr (isName_of_reads hname nofun)

theorem isParsed_importSpec {spec : ImportSpec} (h : IsReadBy .spaced .importSpec bound node)
    (hspec : ImportSpec.ofNode node = .ok spec) : spec.IsParsed := by
  obtain ⟨_, hnode, hbody⟩ := h.exists_children nofun
  obtain ⟨_, _, _, _, hname, -, hpath, rfl⟩ := hbody.of_seq
  obtain ⟨_, rfl, -⟩ := hpath.of_call nofun
  rw [hnode] at hspec
  rcases hname.of_opt with hname | ⟨rfl, -⟩
  · obtain ⟨name, rfl, -, -, hnameNode⟩ := hname.exists_one nofun h.length_lt
    obtain ⟨path, hpath, hspec⟩ := bind_eq_ok.mp hspec
    cases hspec
    refine ⟨fun ident hident => ?_, path_of_importPathOf hpath⟩
    cases hident
    exact text_of_importName hnameNode
  · obtain ⟨path, hpath, hspec⟩ := bind_eq_ok.mp hspec
    cases hspec
    exact ⟨nofun, path_of_importPathOf hpath⟩

/-- What each of some nodes is read as holds of all that is made of them. -/
theorem forall_of_mapM {α : Type} {rule : Rule} {ofNode : Node → Parsed α} {P : α → Prop}
    (hnode : ∀ {node a}, IsReadBy .spaced rule bound node → ofNode node = .ok a → P a)
    (hnodes : ∀ node ∈ nodes, IsReadBy .spaced rule bound node) {as : List α}
    (h : nodes.mapM ofNode = .ok as) : ∀ a ∈ as, P a := by
  intro a ha
  obtain ⟨node, hmem, hof⟩ := exists_of_mapM h a ha
  exact hnode (hnodes node hmem) hof

/-- The nodes of a group, or one that is in no group, are those of its specifications. -/
theorem isReadBy_of_group {word group spec : Rule} {spelling : String}
    (hbody : ruleBody group =
      inOrder [text "(", newlines, .opt (separated (.call spec)), text ")"])
    (hkind : ruleKind group = .phrase)
    (h : declarations.Reads .spaced
      (.seq (keyword word spelling) (oneOf [.call group, .call spec])) cursor
      (some (nodes, last))) (hbound : cursor.rest.length < bound) :
    (∃ start stop specs, nodes = [⟨group, start, stop, specs⟩] ∧
        ∀ node ∈ specs, IsReadBy .spaced spec bound node) ∨
      ∃ node, nodes = [node] ∧ IsReadBy .spaced spec bound node := by
  obtain ⟨_, _, hword, hgap, h⟩ := h.of_seq_silent rfl
  have hlt := hword.length_le_of_gap hgap hbound
  rcases h.of_alt with h | ⟨-, h⟩
  · obtain ⟨specs, rfl, hspecs⟩ := h.of_call nofun
    rw [hbody, hkind] at hspecs
    exact .inl ⟨_, _, specs, rfl, hspecs.isReadBy nofun (fun _ => eq_of_mem_calls) hlt⟩
  · obtain ⟨node, rfl, -, -, hnode⟩ := h.exists_one nofun hlt
    exact .inr ⟨node, rfl, hnode⟩

theorem isParsed_imports (h : IsReadBy .spaced .importDecl bound node) {specs : List ImportSpec}
    (hspecs : importsOf node.children = .ok specs) : ∀ spec ∈ specs, spec.IsParsed := by
  obtain ⟨_, hnode, hbody⟩ := h.exists_children nofun
  rw [hnode] at hspecs
  rcases isReadBy_of_group rfl rfl hbody h.length_lt with
    ⟨_, _, nodes, rfl, hnodes⟩ | ⟨spec, rfl, hspec⟩
  · exact forall_of_mapM isParsed_importSpec hnodes hspecs
  · obtain ⟨_, hspecEq, -⟩ := hspec.exists_children nofun
    rw [hspecEq] at hspecs hspec
    exact forall_of_mapM isParsed_importSpec (List.forall_mem_singleton.mpr hspec) hspecs

/-! ## 3. Declarations -/

theorem isParsed_typeSpec {decl : TypeDecl} (h : IsReadBy .spaced .typeSpec bound node)
    (hdecl : TypeDecl.ofNode node = .ok decl) : isName decl.name = true ∧ decl.type.IsParsed := by
  obtain ⟨_, hnode, hbody⟩ := h.exists_children nofun
  obtain ⟨_, _, _, _, hname, hgap, hrest, rfl⟩ := hbody.of_seq
  obtain ⟨name, rfl, -, -, hnameNode⟩ := hname.exists_one nofun h.length_lt
  have hlt := hname.length_le_of_gap hgap h.length_lt
  obtain ⟨_, _, _, _, hmarker, hgap, htype, rfl⟩ := hrest.of_seq
  obtain ⟨typeNode, rfl, -, -, htypeNode⟩ :=
    htype.exists_one nofun (hmarker.length_le_of_gap hgap hlt)
  have hnamed := isName_of_reads hnameNode nofun
  rw [hnode] at hdecl
  rcases hmarker.of_opt with hmarker | ⟨rfl, -⟩
  · obtain ⟨_, rfl, -⟩ := hmarker.of_call nofun
    obtain ⟨type, htype, hdecl⟩ := bind_eq_ok.mp hdecl
    cases hdecl
    exact ⟨hnamed, isParsed_of_reads htypeNode htype⟩
  · obtain ⟨_, htypeEq, -⟩ := htypeNode.exists_children nofun
    rw [htypeEq] at hdecl htypeNode
    obtain ⟨type, htype, hdecl⟩ := bind_eq_ok.mp hdecl
    cases hdecl
    exact ⟨hnamed, isParsed_of_reads htypeNode htype⟩

theorem isParsed_typeDecl (h : IsReadBy .spaced .typeDecl bound node) {decls : List TypeDecl}
    (hdecls : typeDeclsOf node.children = .ok decls) :
    ∀ decl ∈ decls, isName decl.name = true ∧ decl.type.IsParsed := by
  obtain ⟨_, hnode, hbody⟩ := h.exists_children nofun
  rw [hnode] at hdecls
  rcases isReadBy_of_group rfl rfl hbody h.length_lt with
    ⟨_, _, nodes, rfl, hnodes⟩ | ⟨spec, rfl, hspec⟩
  · exact forall_of_mapM isParsed_typeSpec hnodes hdecls
  · obtain ⟨_, hspecEq, -⟩ := hspec.exists_children nofun
    rw [hspecEq] at hdecls hspec
    exact forall_of_mapM isParsed_typeSpec (List.forall_mem_singleton.mpr hspec) hdecls

theorem isParsed_signatureOf (h : IsReadBy .spaced .signature bound node)
    {params results : FieldList} (hsignature : signatureOf node = .ok (params, results)) :
    params.IsParsed ∧ results.IsParsed := by
  obtain ⟨_, _, _, _, hnode, hparams, hresults⟩ :=
    exists_signature (fun hinner htype => isParsed_of_reads hinner htype) h
  rw [hnode] at hsignature
  obtain ⟨_, hparamFields, hsignature⟩ := bind_eq_ok.mp hsignature
  obtain ⟨_, hresultFields, hsignature⟩ := bind_eq_ok.mp hsignature
  cases hsignature
  exact ⟨hparams _ hparamFields, hresults _ hresultFields⟩

theorem isParsed_funcDecl (h : IsReadBy .spaced .funcDecl bound node) {span : Span}
    {decl : FuncDecl} (hdecl : FuncDecl.ofParts span node.children = .ok decl) :
    Decl.IsParsed (.func decl) := by
  obtain ⟨_, hnode, hbody⟩ := h.exists_children nofun
  rw [hnode] at hdecl
  obtain ⟨_, _, hword, hgap, hbody⟩ := hbody.of_seq_silent rfl
  have hlt := hword.length_le_of_gap hgap h.length_lt
  obtain ⟨_, _, _, _, hreceiver, hgap, hnamed, rfl⟩ := hbody.of_seq
  have hlt' := hreceiver.length_le_of_gap hgap hlt
  obtain ⟨_, _, _, _, hname, hgap, hsigned, rfl⟩ := hnamed.of_seq
  obtain ⟨name, rfl, -, -, hnameNode⟩ := hname.exists_one nofun hlt'
  have hlt' := hname.length_le_of_gap hgap hlt'
  obtain ⟨_, _, _, _, hsignature, -, -, rfl⟩ := hsigned.of_seq
  obtain ⟨signature, rfl, -, -, hsignatureNode⟩ := hsignature.exists_one nofun hlt'
  have hnamed := isName_of_reads hnameNode nofun
  rcases hreceiver.of_opt with hreceiver | ⟨rfl, -⟩
  · obtain ⟨_, rfl, hlist⟩ := hreceiver.of_call nofun
    obtain ⟨list, rfl, -, -, hlistNode⟩ :=
      (hlist : declarations.Reads .spaced (.call .parameters) _ _).exists_one nofun hlt
    obtain ⟨_, hlistEq, -⟩ := hlistNode.exists_children nofun
    rw [hlistEq] at hdecl hlistNode
    obtain ⟨receiver, hreceiver, hdecl⟩ := bind_eq_ok.mp hdecl
    obtain ⟨⟨params, results⟩, hsignature, hdecl⟩ := bind_eq_ok.mp hdecl
    cases hdecl
    obtain ⟨hparams, hresults⟩ := isParsed_signatureOf hsignatureNode hsignature
    refine .func hnamed (fun fields hfields => ?_) hparams hresults
    cases hfields
    exact isParsed_parameters (fun hinner htype => isParsed_of_reads hinner htype) hlistNode
      hreceiver
  · obtain ⟨_, hnameEq, -⟩ := hnameNode.exists_children nofun
    rw [hnameEq] at hdecl
    obtain ⟨⟨params, results⟩, hsignature, hdecl⟩ := bind_eq_ok.mp hdecl
    cases hdecl
    rw [hnameEq] at hnamed
    obtain ⟨hparams, hresults⟩ := isParsed_signatureOf hsignatureNode hsignature
    exact .func hnamed nofun hparams hresults

theorem isParsed_decls (h : IsReadBy .spaced node.rule bound node) {decls : List Decl}
    (hdecls : Decl.listOfNode node = .ok decls) : ∀ decl ∈ decls, decl.IsParsed := by
  unfold Decl.listOfNode at hdecls
  split at hdecls
  · rename_i hrule
    rw [hrule] at h
    obtain ⟨types, htypes, hdecls⟩ := bind_eq_ok.mp hdecls
    cases hdecls
    intro decl hmem
    obtain ⟨type, htype, rfl⟩ := List.mem_map.mp hmem
    obtain ⟨hname, hparsed⟩ := isParsed_typeDecl h htypes type htype
    exact .type hname hparsed
  · rename_i hrule
    rw [hrule] at h
    obtain ⟨func, hfunc, hdecls⟩ := bind_eq_ok.mp hdecls
    cases hdecls
    exact List.forall_mem_singleton.mpr (isParsed_funcDecl h hfunc)
  · obtain ⟨value, -, hdecls⟩ := bind_eq_ok.mp hdecls
    cases hdecls
    exact List.forall_mem_singleton.mpr (.value value)
  · cases hdecls

end Parts

/-! ## 4. Files -/

theorem isName_of_packageClause {node : Node} {bound : Nat} {name : String}
    (h : IsReadBy .spaced .packageClause bound node)
    (hname : node.children.head?.map Node.text = some name) : isName name = true := by
  obtain ⟨_, hnode, hbody⟩ := h.exists_children nofun
  obtain ⟨_, _, -, -, hident⟩ := hbody.of_seq_silent rfl
  obtain ⟨ident, rfl, -, -, hread⟩ := hident.exists_one nofun (Nat.lt_succ_self _)
  rw [hnode] at hname
  cases hname
  exact isName_of_reads hread nofun

/-- **Files that are read have the shape of files.** -/
theorem SourceFile.isParsed_of_parse {text : String} {sourceName : Option String}
    {file : SourceFile} (h : SourceFile.parse text sourceName = .ok file) : file.IsParsed := by
  obtain ⟨clause, items, last, hfile, hbody⟩ := SourceFile.exists_items h
  obtain ⟨hclause, hitems⟩ := List.forall_mem_cons.mp
    (hbody.isReadBy_rule Mode.noConfusion (Nat.lt_succ_self _))
  refine ⟨?_, fun spec hmem => ?_, fun decl hmem => ?_⟩
  · obtain ⟨hrule, hname⟩ := hfile.package
    exact isName_of_packageClause (hrule ▸ hclause) hname
  · obtain ⟨item, hitem, hrule, specs, hspecs, hspec⟩ := hfile.imports spec hmem
    exact isParsed_imports (hrule ▸ hitems item hitem) hspecs spec hspec
  · obtain ⟨item, hitem, decls, hdecls, hdecl⟩ := hfile.decls decl hmem
    exact isParsed_decls (hitems item hitem) hdecls decl hdecl

/-! ## 5. Files that are written as themselves -/

/-- Whether a path, when it stands between quotes, ends there. -/
def ImportSpec.isWritable (spec : ImportSpec) : Bool :=
  closesString (spec.path.toList ++ ['"'])

/-- Whether the types of a declaration are written as themselves. -/
def Decl.isWritable : Decl → Bool
  | .type decl => decl.type.everywhere TypeExpr.isWritable
  | .func decl =>
    decl.receiver.all (·.everywhere TypeExpr.isWritable) &&
      (TypeExpr.function decl.params decl.results).everywhere TypeExpr.isWritable
  | .value _ => true

/-- Whether the paths and types of a file are written as themselves. -/
def SourceFile.isWritable (file : SourceFile) : Bool :=
  file.imports.all ImportSpec.isWritable && file.decls.all Decl.isWritable

theorem ImportSpec.IsParsed.isReadable {spec : ImportSpec} (h : spec.IsParsed)
    (hwritable : spec.isWritable = true) : spec.IsReadable := by
  refine ⟨h.name, ?_⟩
  obtain ⟨hne, hblank⟩ := h.path
  rw [isImportPath, List.isEmpty_eq_false_iff.mpr hne, hblank]
  exact hwritable

theorem FieldList.IsParsed.isReadable_and_reread {fields : FieldList} (h : fields.IsParsed)
    (hwritable : fields.everywhere TypeExpr.isWritable = true) :
    fields.IsReadable ∧ fields.reread = fields := by
  have htypes := fun field hmem => (h.types field hmem).isReadable_and_reread
    (TypeExpr.everywhere_variadicElem (FieldList.everywhere_iff.mp hwritable field hmem))
  exact ⟨⟨h.shape, fun field hmem => (htypes field hmem).1⟩, reread_eq_of_forall fun field hmem =>
    TypeExpr.reread_eq_of_variadicElem (htypes field hmem).2⟩

theorem Decl.IsParsed.isReadable_and_reread {decl : Decl} (h : decl.IsParsed)
    (hwritable : decl.isWritable = true) : decl.IsReadable ∧ decl.reread = decl := by
  cases h with
  | type hname htype =>
    obtain ⟨hreadable, hsame⟩ := htype.isReadable_and_reread hwritable
    refine ⟨.type hname hreadable, ?_⟩
    rw [reread, TypeDecl.reread, hsame]
  | @func decl hname hreceiver hparams hresults =>
    obtain ⟨hwritable, hsignature⟩ := Bool.and_eq_true_iff.mp hwritable
    obtain ⟨hreadable, hsame⟩ := (TypeExpr.IsParsed.function hparams.shape hresults.shape
      hparams.types hresults.types).isReadable_and_reread hsignature
    obtain ⟨hparamsSame, hresultsSame⟩ := TypeExpr.function.inj hsame
    have hlist : ∀ receiver, decl.receiver = some receiver →
        receiver.IsReadable ∧ receiver.reread = receiver := by
      intro receiver hsome
      rw [hsome] at hwritable
      exact (hreceiver receiver hsome).isReadable_and_reread hwritable
    have hlistSame : decl.receiver.map FieldList.reread = decl.receiver := by
      cases hsome : decl.receiver with
      | none => rfl
      | some receiver => exact congrArg some (hlist receiver hsome).2
    refine ⟨.func hname (fun receiver hsome => (hlist receiver hsome).1) hreadable, ?_⟩
    rw [reread, FuncDecl.reread, hlistSame, hparamsSame, hresultsSame]
  | value decl => exact ⟨.value decl, rfl⟩

/-- **A file that has been read is readable**, and read as itself, if it is written as itself. -/
theorem SourceFile.IsParsed.isReadable_and_reread {file : SourceFile} (h : file.IsParsed)
    (hwritable : file.isWritable = true) : file.IsReadable ∧ file.reread = file := by
  obtain ⟨himports, hdecls⟩ := Bool.and_eq_true_iff.mp hwritable
  rw [List.all_eq_true] at himports hdecls
  have hall := fun decl hmem => (h.decls decl hmem).isReadable_and_reread (hdecls decl hmem)
  refine ⟨⟨h.package, fun spec hmem => (h.imports spec hmem).isReadable (himports spec hmem),
    fun decl hmem => (hall decl hmem).1⟩, ?_⟩
  have hsame : file.decls.map Decl.reread = file.decls :=
    (List.map_congr_left fun decl hmem => (hall decl hmem).2).trans (List.map_id _)
  rw [SourceFile.reread, hsame]

end GoStencil
