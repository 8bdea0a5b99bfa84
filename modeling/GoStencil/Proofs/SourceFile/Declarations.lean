import GoStencil.Proofs.SourceFile.Lines
import GoStencil.Proofs.SourceFile.Readable

/-!
# How imports and declarations are read

Each of them stands on lines of its own, so a line end follows it.

* `takesBefore_importDecl`: imports are read with their names and paths.
* `takesBefore_typeDecl`, `takesBefore_funcDecl`, `takesBefore_valueDecl`: declarations are read.
-/

namespace GoStencil.Grammar

open Pattern

variable {input tail rest : List Char}

/-! ## 1. Imports -/

theorem takes_importPath {path : String} (h : isImportPath path = true) (rest : List Char) :
    Takes .spaced (.call .importPath) ('"' :: (path.toList ++ '"' :: rest)) rest fun nodes =>
      ∃ node, nodes = [node] ∧ importPathOf node = .ok path := by
  simp only [isImportPath, Bool.and_eq_true, Bool.not_eq_true'] at h
  obtain ⟨⟨hne, hblank⟩, hcloses⟩ := h
  have htext : '"' :: (path.toList ++ '"' :: rest) =
      ('"' :: (path.toList ++ ['"'])) ++ rest := by
    simp only [List.cons_append, List.append_assoc, List.nil_append]
  have hbody : Takes .token (ruleBody .importPath) (('"' :: (path.toList ++ ['"'])) ++ rest) rest
      _ := Takes.alt (takes_stringLit hcloses)
  rw [htext]
  refine (takes_tokenRule .importPath rfl hbody).imp ?_
  rintro _ ⟨start, stop, children, rfl, hchars⟩
  refine ⟨_, rfl, ?_⟩
  have hpath : Node.chars ⟨.importPath, start, stop, children⟩ = '"' :: (path.toList ++ ['"']) :=
    hchars
  rw [importPathOf, hpath, List.tail_cons, List.dropLast_concat, hne, hblank,
    String.ofList_toList]
  rfl

theorem takes_importName {ident : String} (h : ident = "." ∨ isName ident = true)
    (hrest : continues rest = false) :
    Takes .spaced (.call .importName) (ident.toList ++ rest) rest
      (Spells .importName ident.toList) := by
  rcases h with rfl | h
  · have hdot : Takes .spaced (.call .dotImport) (".".toList ++ rest) rest _ :=
      takes_phrase .dotImport rfl (takes_text .spaced "." rest)
    exact Takes.call_spells nofun hdot.alt
  · have hdot : Refuses .spaced (.call .dotImport) (ident.toList ++ rest) :=
      Refuses.call (refuses_text_of_head rfl (head_ne_of_isName h (by decide)))
    exact Takes.call_spells nofun (hdot.alt_takes (takes_identifier nofun h hrest))

/-- Whether there is one node, which stands for an import but for its place. -/
def WritesImport (spec : ImportSpec) (nodes : List Node) : Prop :=
  ∃ node read, nodes = [node] ∧ node.rule = .importSpec ∧ ImportSpec.ofNode node = .ok read ∧
    read.bare = spec.bare

/-- The text of an import. -/
def importText (spec : ImportSpec) : List Char :=
  spec.render.toList

theorem isOpening_importName {ident : String} (h : ident = "." ∨ isName ident = true) :
    isOpening ident.toList = true := by
  rcases h with rfl | h
  · rfl
  · exact isOpening_of_isName h

/-- **An import is read** with its name and its path. -/
theorem takesBefore_importSpec {spec : ImportSpec} (h : spec.IsReadable) :
    TakesBefore Skips (.call .importSpec) (importText spec) (WritesImport spec) := by
  obtain ⟨alias?, path, span⟩ := spec
  have hquoted : ∀ tail, ("\"" ++ path ++ "\"").toList ++ tail =
      '"' :: (path.toList ++ '"' :: tail) := by
    intro tail
    simp only [String.toList_append, List.append_assoc]
    rfl
  cases alias? with
  | none =>
    have hopens : isOpening (importText ⟨none, path, span⟩) = true := by
      have hwhole := hquoted []
      rw [List.append_nil] at hwhole
      rw [importText, ImportSpec.render, hwhole]
      rfl
    refine ⟨hopens, fun {tail rest} hskips => ⟨tail, hskips, ?_⟩⟩
    have hident : Refuses .spaced (.call .identifier) ('"' :: (path.toList ++ '"' :: tail)) :=
      refuses_identifier_of_start fun _ _ h => by cases h; rfl
    have hnone : Refuses .spaced (.call .importName) ('"' :: (path.toList ++ '"' :: tail)) :=
      Refuses.call (Refuses.alt (Refuses.call (refuses_text_of_head rfl nofun)) hident)
    have hbody : Takes .spaced (ruleBody .importSpec) ('"' :: (path.toList ++ '"' :: tail)) tail
        _ := Takes.seq hnone.opt (skips_of_noGap rfl) (takes_importPath h.path tail)
    rw [importText, ImportSpec.render, hquoted]
    refine (takes_phrase .importSpec rfl hbody).imp ?_
    rintro _ ⟨start, stop, children, rfl, hchildren⟩
    obtain ⟨node, rfl, hnode⟩ := hchildren.nil_left
    refine ⟨_, ⟨none, path, ⟨start.offset, stop.offset⟩⟩, rfl, rfl, ?_, rfl⟩
    rw [ImportSpec.ofNode, hnode]
    rfl
  | some ident =>
    have hname := h.name ident rfl
    have htext : ∀ tail, importText ⟨some ident, path, span⟩ ++ tail =
        ident.toList ++ ' ' :: '"' :: (path.toList ++ '"' :: tail) := by
      intro tail
      simp only [importText, ImportSpec.render, String.toList_append, List.append_assoc]
      rfl
    have hopens : isOpening (importText ⟨some ident, path, span⟩) = true := by
      have hwhole := htext []
      rw [List.append_nil] at hwhole
      rw [hwhole]
      exact isOpening_append (isOpening_importName hname)
    refine ⟨hopens, fun {tail rest} hskips => ⟨tail, hskips, ?_⟩⟩
    have hbody : Takes .spaced (ruleBody .importSpec)
        (ident.toList ++ ' ' :: '"' :: (path.toList ++ '"' :: tail)) tail _ :=
      Takes.seq (takes_importName hname rfl).opt (skips_blank rfl) (takes_importPath h.path tail)
    rw [htext]
    refine (takes_phrase .importSpec rfl hbody).imp ?_
    rintro _ ⟨start, stop, _, rfl, _, _, rfl, hleft, node, rfl, hnode⟩
    obtain ⟨nameNode, rfl, -, hnameText⟩ := text_of_spells hleft
    refine ⟨_, ⟨some ident, path, ⟨start.offset, stop.offset⟩⟩, rfl, rfl, ?_, rfl⟩
    rw [List.cons_append, List.nil_append, ImportSpec.ofNode, hnode, hnameText]
    rfl

/-- Whether there is one node, which stands for the imports of a declaration, but for their
    places. -/
def WritesImports (specs : List ImportSpec) (nodes : List Node) : Prop :=
  ∃ node read, nodes = [node] ∧ node.rule = .importDecl ∧ importsOf node.children = .ok read ∧
    read.map ImportSpec.bare = specs.map ImportSpec.bare

theorem mapM_of_each {specs : List ImportSpec} {nodes : List Node}
    (h : Each WritesImport specs nodes) : ∃ read, nodes.mapM ImportSpec.ofNode = .ok read ∧
      read.map ImportSpec.bare = specs.map ImportSpec.bare := by
  induction specs generalizing nodes with
  | nil =>
    cases h
    exact ⟨[], rfl, rfl⟩
  | cons spec specs ih =>
    obtain ⟨_, right, rfl, ⟨node, first, rfl, -, hnode, hfirst⟩, hright⟩ := h
    obtain ⟨read, hread, hrest⟩ := ih hright
    refine ⟨first :: read, ?_, by rw [List.map_cons, List.map_cons, hfirst, hrest]⟩
    rw [List.singleton_append, List.mapM_cons, hnode, hread]
    rfl

/-- The text of the imports of a file. -/
def importsText : List ImportSpec → List Char
  | [] => []
  | [spec] => "import".toList ++ ' ' :: importText spec
  | first :: specs =>
    "import".toList ++ ' ' :: '(' :: '\n' :: '\t' ::
      (importText first ++ (trailing ['\n', '\t'] importText specs ++ ['\n', ')']))

theorem importsText_group (first second : ImportSpec) (specs : List ImportSpec) :
    importsText (first :: second :: specs) = "import".toList ++ ' ' :: '(' :: '\n' :: '\t' ::
      (importText first ++
        (trailing ['\n', '\t'] importText (second :: specs) ++ ['\n', ')'])) :=
  rfl

theorem takes_importWord (h : continues rest = false) :
    Takes .spaced (keyword .importWord "import") ("import".toList ++ rest) rest (· = []) :=
  takes_keyword rfl rfl rfl h

/-- An import by itself is not taken for a group of imports. -/
theorem refuses_importGroup {spec : ImportSpec} (h : spec.IsReadable) (tail : List Char) :
    Refuses .spaced (.call .importGroup) (importText spec ++ tail) := by
  refine Refuses.call (Refuses.seq (refuses_text_of_head rfl fun after hafter => ?_))
  obtain ⟨alias?, path, span⟩ := spec
  cases alias? with
  | none =>
    simp only [importText, ImportSpec.render, String.toList_append, List.append_assoc] at hafter
    cases hafter
  | some ident =>
    simp only [importText, ImportSpec.render, String.toList_append, List.append_assoc] at hafter
    rcases h.name ident rfl with rfl | hname
    · cases hafter
    · exact head_ne_of_isName hname (by decide) _ hafter

theorem closes_importSpec : Closes ')' (.call .importSpec) := by
  refine ⟨rfl, by decide, fun rest => Refuses.call ?_⟩
  have hident : Refuses .spaced (.call .identifier) (')' :: rest) :=
    refuses_identifier_of_start fun _ _ h => by cases h; rfl
  have hname : Refuses .spaced (.call .importName) (')' :: rest) :=
    Refuses.call (Refuses.alt (Refuses.call (refuses_text_of_head rfl nofun)) hident)
  have hquote : ∀ {rule : Rule} {s : String} {second : Pattern},
      ruleBody rule = .seq (text s) second → s.toList.head? ≠ some ')' → s.toList ≠ [] →
      Refuses .token (.call rule) (')' :: rest) := by
    intro rule s second hbody hhead hne
    refine Refuses.call ?_
    rw [hbody]
    refine Refuses.seq (refuses_text fun after hafter => ?_)
    cases hs : s.toList with
    | nil => exact hne hs
    | cons c cs =>
      rw [hs] at hafter hhead
      cases hafter
      exact hhead rfl
  have hpath : Refuses .spaced (.call .importPath) (')' :: rest) :=
    Refuses.call ((hquote rfl (by decide) (by decide)).alt (hquote rfl (by decide) (by decide)))
  exact Takes.seq_refuses hname.opt (skips_of_noGap rfl) hpath

/-- What comes after a declaration: the end of its line. -/
def EndsLine (tail rest : List Char) : Prop :=
  tail = rest ∧ ∃ after, tail = '\n' :: after

theorem EndsLine.skips (h : EndsLine tail rest) : Skips tail rest := by
  obtain ⟨rfl, after, rfl⟩ := h
  exact skips_of_noGap rfl

theorem EndsLine.follows (h : EndsLine tail rest) : Follows tail rest := by
  obtain ⟨rfl, after, rfl⟩ := h
  exact follows_of_isStop rfl

/-- **Imports are read**, one by itself and several in a group. -/
theorem takesBefore_importDecl {first : ImportSpec} {specs : List ImportSpec}
    (h : ∀ spec ∈ first :: specs, spec.IsReadable) :
    TakesBefore EndsLine (.call .importDecl) (importsText (first :: specs))
      (WritesImports (first :: specs)) := by
  cases specs with
  | nil =>
    refine ⟨rfl, fun {tail rest} hends => ?_⟩
    have hspec := h first List.mem_cons_self
    have hitem := takesBefore_importSpec hspec
    obtain ⟨stop, hskips, htakes⟩ := hitem.takes hends.skips
    have hgap : noGap (importText first ++ tail) = true :=
      noGap_of_isInked (isInked_append hitem.opens)
    have hbody : Takes .spaced (ruleBody .importDecl)
        ("import".toList ++ ' ' :: (importText first ++ tail)) stop _ :=
      Takes.seq (takes_importWord rfl) (skips_blank hgap)
        ((refuses_importGroup hspec _).alt_takes htakes)
    refine ⟨stop, hskips, (takes_phrase .importDecl rfl hbody).imp ?_⟩
    rintro _ ⟨start, stop, _, rfl, hchildren⟩
    obtain ⟨node, read, rfl, hrule, hnode, hsame⟩ := hchildren.nil_left
    obtain ⟨rule, start', stop', children⟩ := node
    cases hrule
    refine ⟨_, [read], rfl, rfl, ?_, by rw [List.map_singleton, List.map_singleton, hsame]⟩
    rw [importsOf]
    · rw [List.mapM_cons, hnode]
      rfl
    · nofun
  | cons second specs =>
    refine ⟨rfl, fun {tail rest} hends => ⟨tail, hends.skips, ?_⟩⟩
    have hgroup : Takes .spaced (ruleBody .importGroup) _ tail _ :=
      takes_lines tail '(' closes_importSpec
        (fun spec hspec => takesBefore_importSpec (h spec hspec))
        (fun after => (skips_of_noGap rfl : Skips ('\n' :: after) ('\n' :: after)))
    have hbody : Takes .spaced (ruleBody .importDecl) ("import".toList ++ ' ' :: _) tail _ :=
      Takes.seq (takes_importWord rfl) (skips_blank rfl)
        (Takes.alt (takes_phrase .importGroup rfl hgroup))
    have htext : importsText (first :: second :: specs) ++ tail =
        "import".toList ++ ' ' :: '(' :: '\n' :: '\t' :: (importText first ++
          (trailing ['\n', '\t'] importText (second :: specs) ++ '\n' :: ')' :: tail)) := by
      simp only [importsText_group, List.cons_append, List.append_assoc, List.nil_append]
    rw [htext]
    refine (takes_phrase .importDecl rfl hbody).imp ?_
    rintro _ ⟨start, stop, _, rfl, hchildren⟩
    obtain ⟨start', stop', children, rfl, hspecs⟩ := hchildren.nil_left
    obtain ⟨read, hread, hsame⟩ := mapM_of_each hspecs
    exact ⟨_, read, rfl, rfl, hread, hsame⟩

/-! ## 2. Declarations of types -/

/-- Whether there is one node, which stands for a declaration but for its place. -/
def WritesDecl (decl : Decl) (nodes : List Node) : Prop :=
  ∃ node read, nodes = [node] ∧ node.rule ∈ [Rule.typeDecl, .funcDecl, .valueDecl] ∧
    Decl.listOfNode node = .ok [read] ∧ read.bare = decl.bare

/-- A text that is no type begins no type. -/
theorem TakesBefore.head_ne {cs : List Char} {type : TypeExpr} (h : TakesType cs type) {d : Char}
    (hd : ∀ after, Refuses .spaced (.call .typeExpr) (d :: after)) (tail after : List Char) :
    cs ++ tail ≠ d :: after := by
  intro heq
  obtain ⟨stop, -, htakes⟩ := h.takes (follows_of_isStop (rfl : isStop [] = true))
  cases cs with
  | nil => cases h.opens
  | cons c cs =>
    injection heq with hhead
    rw [hhead, List.append_nil] at htakes
    obtain ⟨_, _, hreads, -⟩ := htakes 0
    cases hreads.unique (hd cs 0)

/-- The text between the name and the type of a declaration. -/
def aliasText (isAlias : Bool) : List Char :=
  if isAlias then ['=', ' '] else []

theorem toList_render_typeDecl (decl : TypeDecl) :
    decl.render.toList = "type".toList ++ ' ' ::
      (decl.name.toList ++ ' ' :: (aliasText decl.isAlias ++ decl.type.renderBlock.toList)) := by
  simp only [TypeDecl.render, String.toList_append, List.append_assoc]
  cases decl.isAlias <;> rfl

theorem refuses_typeGroup {ident : String} (h : isName ident = true) (tail : List Char) :
    Refuses .spaced (.call .typeGroup) (ident.toList ++ tail) :=
  Refuses.call (Refuses.seq (refuses_text_of_head rfl (head_ne_of_isName h (by decide))))

/-- **The declaration of a type is read.** -/
theorem takesBefore_typeSpec {decl : TypeDecl} (hname : isName decl.name = true)
    (htype : decl.type.IsReadable) :
    TakesBefore EndsLine (.call .typeSpec)
      (decl.name.toList ++ ' ' :: (aliasText decl.isAlias ++ decl.type.renderBlock.toList))
      fun nodes => ∃ node read, nodes = [node] ∧ node.rule = .typeSpec ∧
        TypeDecl.ofNode node = .ok read ∧
          (Decl.type read).bare = (Decl.type decl.reread).bare := by
  refine ⟨isOpening_append (isOpening_of_isName hname), fun {tail rest} hends => ?_⟩
  obtain ⟨name, isAlias, type, span⟩ := decl
  have htakesType := htype.takes_renderBlock
  obtain ⟨stop, hskips, htakes⟩ := htakesType.takes hends.follows
  have hequals : ∀ after, Refuses .spaced (.call .typeExpr) ('=' :: after) := fun _ =>
    refuses_typeExpr rfl
  refine ⟨stop, hskips, ?_⟩
  cases isAlias with
  | false =>
    have hmarker : Refuses .spaced (.call .aliasMarker) (type.renderBlock.toList ++ tail) :=
      Refuses.call (refuses_text_of_head rfl fun after => htakesType.head_ne hequals tail after)
    have hbody : Takes .spaced (ruleBody .typeSpec)
        (name.toList ++ ' ' :: (type.renderBlock.toList ++ tail)) stop _ :=
      Takes.seq (takes_identifier nofun hname rfl)
        (skips_blank (noGap_of_isInked (isInked_append htakesType.opens)))
        (Takes.seq hmarker.opt (skips_append htakesType.opens) htakes)
    have htext : name.toList ++ ' ' :: (aliasText false ++ type.renderBlock.toList) ++ tail =
        name.toList ++ ' ' :: (type.renderBlock.toList ++ tail) := by
      simp only [aliasText, List.append_assoc, List.cons_append]
      rfl
    rw [htext]
    refine (takes_phrase .typeSpec rfl hbody).imp ?_
    rintro _ ⟨start, stop, _, rfl, _, _, rfl, hleft, hright⟩
    obtain ⟨nameNode, rfl, -, hnameText⟩ := text_of_spells hleft
    obtain ⟨_, _, form, rfl, hnode⟩ := hright.nil_left.exists_node
    refine ⟨_, ⟨name, false, type.reread, ⟨start.offset, stop.offset⟩⟩, rfl, rfl, ?_, rfl⟩
    rw [List.cons_append, List.nil_append, TypeDecl.ofNode, hnode, hnameText]
    rfl
  | true =>
    have hmarker : Takes .spaced (.call .aliasMarker)
        ('=' :: ' ' :: (type.renderBlock.toList ++ tail)) _ _ :=
      takes_phrase .aliasMarker rfl (takes_text .spaced "=" _)
    have hbody : Takes .spaced (ruleBody .typeSpec)
        (name.toList ++ ' ' :: '=' :: ' ' :: (type.renderBlock.toList ++ tail)) stop _ :=
      Takes.seq (takes_identifier nofun hname rfl) (skips_blank rfl)
        (Takes.seq hmarker.opt
          (skips_blank (noGap_of_isInked (isInked_append htakesType.opens))) htakes)
    have htext : name.toList ++ ' ' :: (aliasText true ++ type.renderBlock.toList) ++ tail =
        name.toList ++ ' ' :: '=' :: ' ' :: (type.renderBlock.toList ++ tail) := by
      simp only [aliasText, List.append_assoc, List.cons_append]
      rfl
    rw [htext]
    refine (takes_phrase .typeSpec rfl hbody).imp ?_
    rintro _ ⟨start, stop, _, rfl, _, _, rfl, hleft, _, _, rfl, ⟨_, _, _, rfl, -⟩, hright⟩
    obtain ⟨nameNode, rfl, -, hnameText⟩ := text_of_spells hleft
    obtain ⟨node, rfl, hnode⟩ := hright.writes
    refine ⟨_, ⟨name, true, type.reread, ⟨start.offset, stop.offset⟩⟩, rfl, rfl, ?_, rfl⟩
    rw [List.cons_append, List.nil_append, List.cons_append, List.nil_append, TypeDecl.ofNode,
      hnode, hnameText]
    rfl

theorem takesBefore_typeDecl {decl : TypeDecl} (hname : isName decl.name = true)
    (htype : decl.type.IsReadable) :
    TakesBefore EndsLine (.call .typeDecl) decl.render.toList
      (WritesDecl (.type decl.reread)) := by
  have hspec := takesBefore_typeSpec hname htype
  rw [toList_render_typeDecl]
  refine ⟨rfl, fun {tail rest} hends => ?_⟩
  obtain ⟨stop, hskips, htakes⟩ := hspec.takes hends
  have hgroup := refuses_typeGroup hname
    (' ' :: (aliasText decl.isAlias ++ decl.type.renderBlock.toList) ++ tail)
  rw [← List.append_assoc] at hgroup
  have hbody : Takes .spaced (ruleBody .typeDecl) ("type".toList ++ ' ' :: _) stop _ :=
    Takes.seq (takes_keyword rfl rfl rfl rfl)
      (skips_blank (noGap_of_isInked (isInked_append hspec.opens))) (hgroup.alt_takes htakes)
  rw [List.append_assoc, List.cons_append]
  refine ⟨stop, hskips, (takes_phrase .typeDecl rfl hbody).imp ?_⟩
  rintro _ ⟨start, stop, _, rfl, hchildren⟩
  obtain ⟨node, read, rfl, hrule, hnode, hsame⟩ := hchildren.nil_left
  obtain ⟨rule, start', stop', children⟩ := node
  cases hrule
  refine ⟨_, .type read, rfl, List.mem_cons_self, ?_, hsame⟩
  rw [Decl.listOfNode, typeDeclsOf]
  · rw [List.mapM_cons, hnode]
    rfl
  · nofun

/-! ## 3. Declarations of functions -/

/-- The text of a receiver, up to the name of the method. -/
def receiverText : Option FieldList → List Char
  | none => []
  | some receiver => receiver.render.toList ++ [' ']

/-- The text of a body, from the blank before it. -/
def bodyText : Option Body → List Char
  | none => []
  | some body => ' ' :: body.source.toList

theorem toList_render_funcDecl (decl : FuncDecl) :
    decl.render.toList = "func".toList ++ ' ' :: (receiverText decl.receiver ++
      (decl.name.toList ++ ((renderSignature decl.params decl.results).toList ++
        bodyText decl.body))) := by
  obtain ⟨name, receiver, params, results, body, span⟩ := decl
  simp only [FuncDecl.render, String.toList_append, List.append_assoc]
  cases receiver <;> cases body <;>
    simp only [receiverText, bodyText, String.toList_append, List.append_assoc] <;> rfl

theorem FieldList.IsReadable.takes {fields : FieldList} (h : fields.IsReadable) :
    TakesParameters fields.render.toList fields.reread :=
  takesParameters h.shape fun field hfield =>
    takesParam_of_variadicElem (h.types field hfield) (h.types field hfield).takes.1

/-- Whether the nodes before the name of a function stand for its receiver. -/
def Receives : Option FieldList → List Node → Prop
  | none, nodes => nodes = []
  | some receiver, nodes => ∃ start stop rule start' stop' children more,
    nodes = [⟨.receiver, start, stop, ⟨rule, start', stop', children⟩ :: more⟩] ∧
      FieldList.ofParameters children = .ok receiver

theorem takes_receiver (tail : List Char) {receiver : Option FieldList}
    (h : ∀ fields, receiver = some fields → fields.IsReadable) {name : String}
    (hname : isName name = true) :
    ∃ stop, Skips stop (name.toList ++ tail) ∧ noGap (receiverText receiver ++
        (name.toList ++ tail)) = true ∧
      Takes .spaced (.opt (.call .receiver)) (receiverText receiver ++ (name.toList ++ tail)) stop
        (Receives (receiver.map FieldList.reread)) := by
  have hskips : Skips (name.toList ++ tail) (name.toList ++ tail) :=
    skips_append (isOpening_of_isName hname)
  have hgap : noGap (name.toList ++ tail) = true :=
    noGap_of_isInked (isInked_append (isOpening_of_isName hname))
  cases receiver with
  | none =>
    have hnone : Refuses .spaced (.call .receiver) (name.toList ++ tail) :=
      Refuses.call (refuses_parameters (head_ne_of_isName hname (by decide)))
    exact ⟨_, hskips, hgap, hnone.opt⟩
  | some fields =>
    have hfields := FieldList.IsReadable.takes (h fields rfl)
    obtain ⟨stop, hstop, htakes⟩ := hfields.takes (skips_blank hgap)
    have htext : receiverText (some fields) ++ (name.toList ++ tail) =
        fields.render.toList ++ ' ' :: (name.toList ++ tail) := by
      simp only [receiverText, List.append_assoc, List.cons_append, List.nil_append]
    rw [htext]
    refine ⟨stop, hstop, noGap_of_isInked (isInked_append hfields.opens),
      (takes_phrase .receiver rfl htakes).opt.imp ?_⟩
    rintro _ ⟨start, stop, _, rfl, start', stop', children, rfl, hchildren⟩
    exact ⟨_, _, _, _, _, children, [], rfl, hchildren⟩

theorem takes_body {body : Option Body} (h : ∀ block, body = some block → block.IsBlock)
    (hends : EndsLine tail rest) : ∃ next stop, Follows (bodyText body ++ tail) next ∧
      Skips stop rest ∧ Takes .spaced (.opt (.call .funcBody)) next stop
        fun nodes => (Body.ofNodes? nodes).map Body.flat = body.map Body.flat := by
  cases body with
  | none =>
    obtain ⟨rfl, after, rfl⟩ := hends
    have hnone : Refuses .spaced (.call .funcBody) ('\n' :: after) :=
      Refuses.call (Refuses.seq (refuses_text_of_head rfl nofun))
    refine ⟨_, _, follows_of_isStop rfl, skips_of_noGap rfl, hnone.opt.imp ?_⟩
    rintro _ rfl
    rfl
  | some block =>
    obtain ⟨⟨cs, hopens⟩, htakes⟩ := h block rfl
    have hstop : isStop (block.source.toList ++ tail) = true := by
      rw [hopens]
      rfl
    refine ⟨_, tail, follows_blank hstop, hends.skips, (htakes tail).opt.imp ?_⟩
    rintro nodes ⟨read, hread, hsource⟩
    rw [hread, Option.map_some, Option.map_some, Body.flat, Body.flat, hsource]

theorem ofParts_of_receives {receiver : Option FieldList} {name signature : Node}
    {params results : FieldList} {left : List Node} (span : Span) (body : List Node)
    (hleft : Receives receiver left) (hname : name.rule = .identifier)
    (hsignature : signatureOf signature = .ok (params, results)) :
    FuncDecl.ofParts span (left ++ name :: signature :: body) =
      .ok ⟨name.text, receiver, params, results, Body.ofNodes? body, span⟩ := by
  cases receiver with
  | none =>
    cases hleft
    obtain ⟨rule, start, stop, children⟩ := name
    cases hname
    rw [List.nil_append, FuncDecl.ofParts, hsignature]
    · rfl
    · nofun
  | some fields =>
    obtain ⟨_, _, _, _, _, children, _, rfl, hfields⟩ := hleft
    rw [List.cons_append, List.nil_append, FuncDecl.ofParts, hfields, hsignature]
    rfl

theorem Signs.exists_node {params results : FieldList} {nodes : List Node}
    (h : Signs params results nodes) :
    ∃ node, nodes = [node] ∧ signatureOf node = .ok (params, results) := by
  obtain ⟨_, _, _, _, _, _, children, more, rfl, hparams, hresults⟩ := h
  refine ⟨_, rfl, ?_⟩
  rw [signatureOf, hparams, hresults]
  rfl

/-- **The declaration of a function is read**, with its receiver and its body. -/
theorem takesBefore_funcDecl {decl : FuncDecl} (hname : isName decl.name = true)
    (hreceiver : ∀ receiver, decl.receiver = some receiver → receiver.IsReadable)
    (hsignature : (TypeExpr.function decl.params decl.results).IsReadable)
    (hbody : ∀ body, decl.body = some body → body.IsBlock) :
    TakesBefore EndsLine (.call .funcDecl) decl.render.toList
      (WritesDecl (.func decl.reread)) := by
  rw [toList_render_funcDecl]
  refine ⟨rfl, fun {tail rest} hends => ?_⟩
  obtain ⟨cs, hparen⟩ := exists_toList_renderSignature decl.params decl.results
  obtain ⟨next, stop, hnext, hstop, htakesBody⟩ := takes_body hbody hends
  obtain ⟨mid, hmid, htakes⟩ := hsignature.takes.2.takes hnext
  rw [hparen] at htakes
  obtain ⟨before, hbefore, hopens, htakesReceiver⟩ :=
    takes_receiver ('(' :: cs ++ (bodyText decl.body ++ tail)) hreceiver hname
  have hwhole : Takes .spaced (ruleBody .funcDecl) ("func".toList ++ ' ' ::
      (receiverText decl.receiver ++ (decl.name.toList ++
        ('(' :: cs ++ (bodyText decl.body ++ tail))))) stop _ :=
    Takes.seq (takes_keyword rfl rfl rfl rfl) (skips_blank hopens)
      (Takes.seq htakesReceiver hbefore
        (Takes.seq (takes_identifier nofun hname rfl) (skips_of_noGap rfl)
          (Takes.seq htakes hmid htakesBody)))
  have htext : "func".toList ++ ' ' :: (receiverText decl.receiver ++ (decl.name.toList ++
      ((renderSignature decl.params decl.results).toList ++ bodyText decl.body))) ++ tail =
        "func".toList ++ ' ' :: (receiverText decl.receiver ++
          (decl.name.toList ++ ('(' :: cs ++ (bodyText decl.body ++ tail)))) := by
    simp only [hparen, List.append_assoc, List.cons_append]
  rw [htext]
  refine ⟨stop, hstop, (takes_phrase .funcDecl rfl hwhole).imp ?_⟩
  rintro _ ⟨start, stop, _, rfl, hchildren⟩
  obtain ⟨left, _, rfl, hleft, _, _, rfl, hident, _, bodyNodes, rfl, hsign, hblock⟩ :=
    hchildren.nil_left
  obtain ⟨nameNode, rfl, hrule, hnameText⟩ := text_of_spells hident
  obtain ⟨signatureNode, rfl, hsignatureOf⟩ := hsign.exists_node
  refine ⟨_, .func ⟨decl.name, decl.receiver.map FieldList.reread, decl.params.reread,
    decl.results.reread.unwrapSingle, Body.ofNodes? bodyNodes, ⟨start.offset, stop.offset⟩⟩, rfl,
    List.mem_cons_of_mem _ List.mem_cons_self, ?_, ?_⟩
  · have hparse := ofParts_of_receives ⟨start.offset, stop.offset⟩ bodyNodes hleft
      hrule hsignatureOf
    rw [hnameText] at hparse
    simp only [Decl.listOfNode, List.cons_append, List.nil_append, Node.span]
    rw [hparse]
    rfl
  · rw [Decl.bare, Decl.bare, FuncDecl.reread, hblock]

/-! ## 4. All declarations -/

theorem isOpening_keyword : ∀ keyword : ValueKeyword, isOpening keyword.render.toList = true
  | .var => by decide
  | .const => by decide

theorem takesBefore_valueDecl {decl : ValueDecl} (h : decl.IsLine) :
    TakesBefore EndsLine (.call .valueDecl) decl.render.toList (WritesDecl (.value decl)) := by
  have hopens : isOpening decl.render.toList = true := by
    rw [ValueDecl.render, String.toList_append]
    exact isOpening_append (isOpening_keyword decl.keyword)
  refine ⟨hopens, fun {tail rest} hends => ?_⟩
  obtain ⟨rfl, after, rfl⟩ := hends
  refine ⟨_, skips_of_noGap rfl, (h after).imp ?_⟩
  rintro _ ⟨start, stop, children, rfl, read, hsource, hchildren⟩
  refine ⟨_, .value ⟨decl.keyword, read, ⟨start.offset, stop.offset⟩⟩, rfl,
    List.mem_cons_of_mem _ (List.mem_cons_of_mem _ List.mem_cons_self), ?_, ?_⟩
  · simp only [Decl.listOfNode, Node.span]
    rw [hchildren]
    rfl
  · rw [Decl.bare, Decl.bare, Body.flat, Body.flat, hsource]

/-- A declaration. -/
def anyDecl : Pattern :=
  oneOf [.call .typeDecl, .call .funcDecl, .call .valueDecl]

theorem refuses_typeDecl (h : ∀ rest, input ≠ "type".toList ++ rest) :
    Refuses .spaced (.call .typeDecl) input :=
  Refuses.call (Refuses.seq (refuses_keyword rfl rfl fun rest hrest => absurd hrest (h rest)))

theorem refuses_funcDecl (h : ∀ rest, input ≠ "func".toList ++ rest) :
    Refuses .spaced (.call .funcDecl) input :=
  Refuses.call (Refuses.seq (refuses_keyword rfl rfl fun rest hrest => absurd hrest (h rest)))

/-- **A declaration is read from its text**, which ends its line. -/
theorem takesBefore_decl {decl : Decl} (h : decl.IsReadable) (hstream : decl.IsStreamRead) :
    TakesBefore EndsLine anyDecl decl.render.toList (WritesDecl decl.reread) := by
  cases h with
  | type hname htype =>
    have hdecl := takesBefore_typeDecl hname htype
    refine ⟨hdecl.opens, fun hends => ?_⟩
    obtain ⟨stop, hskips, htakes⟩ := hdecl.takes hends
    exact ⟨stop, hskips, htakes.alt⟩
  | @func decl hname hreceiver hsignature =>
    have hdecl := takesBefore_funcDecl hname hreceiver hsignature hstream
    refine ⟨hdecl.opens, fun {tail rest} hends => ?_⟩
    obtain ⟨stop, hskips, htakes⟩ := hdecl.takes hends
    have htype : Refuses .spaced (.call .typeDecl) (decl.render.toList ++ tail) := by
      rw [toList_render_funcDecl]
      exact refuses_typeDecl nofun
    exact ⟨stop, hskips, htype.alt_takes htakes.alt⟩
  | value decl =>
    have hdecl := takesBefore_valueDecl hstream
    refine ⟨hdecl.opens, fun {tail rest} hends => ?_⟩
    obtain ⟨stop, hskips, htakes⟩ := hdecl.takes hends
    have hword : ∀ word, word = "type" ∨ word = "func" →
        ∀ rest, decl.render.toList ++ tail ≠ word.toList ++ rest := by
      intro word hword rest
      rw [ValueDecl.render, String.toList_append]
      rcases hword with rfl | rfl <;> cases decl.keyword <;> nofun
    exact ⟨stop, hskips, (refuses_typeDecl (hword _ (.inl rfl))).alt_takes
      ((refuses_funcDecl (hword _ (.inr rfl))).alt_takes htakes)⟩

end GoStencil.Grammar
