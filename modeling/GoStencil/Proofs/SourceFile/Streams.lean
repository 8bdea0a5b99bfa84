import GoStencil.Proofs.Grammar.Words
import GoStencil.Proofs.Stream.Reading
import Mathlib.Data.List.TakeWhile

/-!
# Token streams keep what they were read from

The body of a function, and what follows the keyword of a declaration of values, is the source as
it stands in the text: cut at its identifiers, which are those that a scan of it finds.

* `Span.source`: the text between two places.
* `FuncDecl.OpensAt`: where the body of a function opens.
* `Decl.IsReadFrom`: what was read to make a declaration.
* `SourceFile.isVerbatim_of_parse`: this holds for every declaration of every file that is read.
-/

namespace GoStencil

open Grammar Pattern

/-! ## 1. Places in a text -/

/-- What follows the given number of bytes. -/
def Grammar.Cursor.dropBytes : Nat → List Char → List Char
  | _, [] => []
  | bytes, c :: cs => if bytes = 0 then c :: cs else dropBytes (bytes - c.utf8Size) cs

/-- The place of a text after the given number of bytes. -/
def Grammar.Cursor.after (text : String) (bytes : Nat) : Cursor :=
  ⟨bytes, dropBytes bytes text.toList⟩

/-- What a text says in a span. -/
def Span.source (span : Span) (text : String) : String :=
  String.ofList ((Cursor.after text span.start).upTo (Cursor.after text span.stop))

section Places

variable {text : String} {first last : Cursor} {cs ds : List Char}

theorem Grammar.Cursor.dropBytes_append (cs rest : List Char) :
    dropBytes (byteLength cs) (cs ++ rest) = rest := by
  induction cs with
  | nil => cases rest <;> rfl
  | cons c cs ih =>
    have hpos := c.utf8Size_pos
    have hbytes : byteLength (c :: cs) = c.utf8Size + byteLength cs := rfl
    rw [List.cons_append, dropBytes, hbytes, if_neg (by omega), Nat.add_sub_cancel_left, ih]

theorem Grammar.Cursor.after_of_reaches (h : (Cursor.start text).Reaches first cs) :
    Cursor.after text first.offset = first := by
  obtain ⟨hrest, hoffset⟩ := h
  obtain ⟨offset, rest⟩ := first
  have hrest : text.toList = cs ++ rest := hrest
  have hoffset : offset = byteLength cs := hoffset.trans (Nat.zero_add _)
  rw [Cursor.after, hrest, hoffset, dropBytes_append]

theorem Span.source_of_reaches (h : (Cursor.start text).Reaches first cs)
    (h' : first.Reaches last ds) :
    Span.source ⟨first.offset, last.offset⟩ text = String.ofList ds := by
  rw [Span.source, Cursor.after_of_reaches h, Cursor.after_of_reaches (h.trans h'), h'.upTo]

end Places

/-! ## 2. What is claimed -/

/-- Whether a stream is cut at its identifiers and nowhere else. Identifiers are the runs of letters
    and digits that a scan finds outside literals, numbers and comments; keywords are among them. -/
structure Body.IsCutAtIdentifiers (body : Body) : Prop where
  alternates : Alternates body.segments
  identifiers : body.identifiers = scanWords body.source

/-- What stands before the body of a function. -/
def funcHead : Pattern :=
  inOrder
    [keyword .funcWord "func", .opt (.call .receiver), .call .identifier, .call .signature]

/-- Whether the body of a function opens after some bytes of the text: up to there the text is read
    as the head of the declaration, with blanks and comments at its end, and there is a brace. -/
structure FuncDecl.OpensAt (decl : FuncDecl) (text : String) (brace : Nat) : Prop where
  head : ∃ nodes stop,
    declarations.Reads .spaced funcHead (Cursor.after text decl.span.start) (some (nodes, stop)) ∧
      FuncDecl.ofParts decl.span nodes = .ok { decl with body := none } ∧
      declarations.Reads .token blanksAndComments stop (some ([], Cursor.after text brace))
  opening : (Cursor.after text brace).rest.head? = some '\x7b'

/-- Whether the streams of a declaration are what stands in the text. -/
def Decl.IsVerbatim (text : String) : Decl → Prop
  | .type _ => True
  | .func decl => ∀ body, decl.body = some body →
      (∃ brace, decl.OpensAt text brace ∧
        decl.span.source text = Span.source ⟨decl.span.start, brace⟩ text ++ body.source) ∧
      isBalanced body.source = true ∧ body.IsCutAtIdentifiers
  | .value decl =>
      decl.span.source text = decl.keyword.render ++ decl.body.source ∧
        decl.body.IsCutAtIdentifiers

theorem Body.isCutAtIdentifiers_ofScan (cs : List Char) :
    (Body.ofScan cs).IsCutAtIdentifiers where
  alternates := alternates_ofScan cs
  identifiers := by rw [identifiers_ofScan, source_ofScan, scanWords, String.toList_ofList]

/-! ## 3. Values -/

section Decls

variable {text : String} {start last : Cursor} {cs : List Char} {children : List Node}

theorem ValueDecl.ofParts_cons {keyword : ValueKeyword} {node : Node}
    (h : node.text = keyword.render) (span : Span) (parts : List Node) :
    ValueDecl.ofParts span (node :: parts) =
      .ok ⟨keyword, Body.ofSegments (Segment.ofNodes parts), span⟩ := by
  rw [ValueDecl.ofParts, h]
  cases keyword <;> rfl

/-- The keyword of a declaration of values is a word of its own. -/
theorem reads_valueKeyword {nodes : List Node}
    (h : declarations.Reads .tight (.call .valueKeyword) start (some (nodes, last))) :
    ∃ (keyword : ValueKeyword) (node : Node), nodes = [node] ∧
      start.Reaches last keyword.render.toList ∧ node.text = keyword.render ∧
      continues last.rest = false := by
  obtain ⟨children, rfl, hbody⟩ := h.of_call nofun
  obtain ⟨_, mid, _, hword, hnot, -⟩ := hbody.of_seq_tight nofun
  obtain ⟨-, rfl, hfails⟩ := hnot.of_notAhead
  obtain ⟨keyword, hreaches⟩ : ∃ keyword : ValueKeyword,
      start.Reaches last keyword.render.toList := by
    rcases hword.of_alt with hword | ⟨-, hword⟩
    · exact ⟨.var, hword.of_literal.2⟩
    · exact ⟨.const, hword.of_literal.2⟩
  have hcontinues : continues last.rest = false := by
    cases hrest : last.rest with
    | nil => rfl
    | cons c rest => exact hfails.satisfy_fails c rest hrest
  refine ⟨keyword, _, rfl, hreaches, ?_, hcontinues⟩
  rw [Node.text, Node.chars, hreaches.upTo, String.ofList_toList]

/-- A declaration of values is its keyword and a line. -/
theorem exists_valueParts
    (h : declarations.Reads .tight (ruleBody .valueDecl) start (some (children, last)))
    {decl : ValueDecl}
    (hdecl : ValueDecl.ofParts ⟨start.offset, last.offset⟩ children = .ok decl) :
    ∃ mid ds parts, start.Reaches mid decl.keyword.render.toList ∧
      continues mid.rest = false ∧
      declarations.Reads .tight (atLeastOnce (streamPart .lineText)) mid (some (parts, last)) ∧
      mid.Reaches last ds ∧
      decl = ⟨decl.keyword, Body.ofScan ds, ⟨start.offset, last.offset⟩⟩ := by
  obtain ⟨_, mid, parts, hkeyword, hline, rfl⟩ := h.of_seq_tight nofun
  obtain ⟨keyword, node, rfl, hreaches, htext, hcontinues⟩ := reads_valueKeyword hkeyword
  obtain ⟨ds, hds, hbody⟩ := exists_line hline
  rw [List.singleton_append, ValueDecl.ofParts_cons htext, hbody] at hdecl
  cases hdecl
  exact ⟨mid, ds, parts, hreaches, hcontinues, hline, hds, rfl⟩

theorem isVerbatim_value (hstart : (Cursor.start text).Reaches start cs)
    (h : declarations.Reads .tight (ruleBody .valueDecl) start (some (children, last)))
    {decl : ValueDecl}
    (hdecl : ValueDecl.ofParts ⟨start.offset, last.offset⟩ children = .ok decl) :
    Decl.IsVerbatim text (.value decl) := by
  obtain ⟨mid, ds, _, hreaches, -, -, hds, hdecl⟩ := exists_valueParts h hdecl
  rw [hdecl]
  refine ⟨?_, Body.isCutAtIdentifiers_ofScan ds⟩
  rw [Span.source_of_reaches hstart (hreaches.trans hds), Body.source_ofScan,
    String.ofList_append, String.ofList_toList]

/-! ## 4. Functions -/

/-- Whether some nodes are those of a receiver, or there is none. -/
def IsReceiver (nodes : List Node) : Prop :=
  nodes = [] ∨ ∃ start stop params more, nodes = [⟨.receiver, start, stop, params :: more⟩]

/-- Whether some nodes are those of what stands before the body of a function. -/
def IsHead (nodes : List Node) : Prop :=
  ∃ receiver name signature,
    IsReceiver receiver ∧ name.rule = .identifier ∧ nodes = receiver ++ [name, signature]

theorem nodes_of_keyword {rule : Rule} {word : String}
    (h : declarations.Reads .spaced (keyword rule word) start (some (children, last))) :
    children = [] := by
  obtain ⟨_, _, _, _, hahead, -, hword, rfl⟩ := h.of_seq
  rw [hahead.of_ahead.1, hword.of_literal.1, List.append_nil]

theorem isReceiver_of_reads
    (h : declarations.Reads .spaced (.opt (.call .receiver)) start (some (children, last))) :
    IsReceiver children := by
  rcases h.of_opt with hcall | ⟨rfl, -⟩
  · obtain ⟨_, rfl, hbody⟩ := hcall.of_call nofun
    obtain ⟨_, rfl, -⟩ := hbody.of_call nofun
    exact .inr ⟨_, _, _, _, rfl⟩
  · exact .inl rfl

theorem isHead_of_reads
    (h : declarations.Reads .spaced funcHead start (some (children, last))) : IsHead children := by
  obtain ⟨_, _, _, _, hkeyword, -, hrest, rfl⟩ := h.of_seq
  obtain ⟨receiver, _, _, _, hreceiver, -, hnamed, rfl⟩ := hrest.of_seq
  obtain ⟨_, _, _, _, hname, -, hsignature, rfl⟩ := hnamed.of_seq
  obtain ⟨_, rfl, -⟩ := hname.of_call nofun
  obtain ⟨_, rfl, -⟩ := hsignature.of_call nofun
  rw [nodes_of_keyword hkeyword]
  exact ⟨receiver, _, _, isReceiver_of_reads hreceiver, rfl, rfl⟩

/-- The head of a function is read on its own, then blanks and comments, then the body. -/
theorem reads_funcHead
    (h : declarations.Reads .spaced (ruleBody .funcDecl) start (some (children, last))) :
    ∃ head stop brace body,
      declarations.Reads .spaced funcHead start (some (head, stop)) ∧
        declarations.Reads .token blanksAndComments stop (some ([], brace)) ∧
        declarations.Reads .spaced (.opt (.call .funcBody)) brace (some (body, last)) ∧
        children = head ++ body := by
  obtain ⟨_, _, _, _, hkeyword, hgap, hrest, rfl⟩ := h.of_seq
  obtain ⟨_, _, _, _, hreceiver, hgap', hnamed, rfl⟩ := hrest.of_seq
  obtain ⟨_, _, _, _, hname, hgap'', hsigned, rfl⟩ := hnamed.of_seq
  obtain ⟨_, stop, brace, body, hsignature, hlast, hbody, rfl⟩ := hsigned.of_seq
  have hhead : declarations.Reads .spaced funcHead start _ :=
    .seq hkeyword hgap (.seq hreceiver hgap' (.seq hname hgap'' hsignature))
  exact ⟨_, stop, brace, body, hhead, hlast, hbody, by simp only [List.append_assoc]⟩

/-- What the nodes after the head of a function make is its body. -/
theorem FuncDecl.ofParts_append {span : Span} {head body : List Node} {decl : FuncDecl}
    (hhead : IsHead head) (h : FuncDecl.ofParts span (head ++ body) = .ok decl) :
    decl.span = span ∧ decl.body = Body.ofNodes? body ∧
      FuncDecl.ofParts span head = .ok { decl with body := none } := by
  obtain ⟨_, ⟨rule, start, stop, children⟩, signature, hreceiver, hname, rfl⟩ := hhead
  cases hname
  rcases hreceiver with rfl | ⟨_, _, ⟨_, _, _, params⟩, _, rfl⟩
  · obtain ⟨fields, hsignature, h⟩ := bind_eq_ok.mp h
    cases h
    refine ⟨rfl, rfl, ?_⟩
    exact bind_eq_ok.mpr ⟨fields, hsignature, rfl⟩
  · obtain ⟨receiver, hparams, h⟩ := bind_eq_ok.mp h
    obtain ⟨fields, hsignature, h⟩ := bind_eq_ok.mp h
    cases h
    refine ⟨rfl, rfl, ?_⟩
    exact bind_eq_ok.mpr ⟨receiver, hparams, bind_eq_ok.mpr ⟨fields, hsignature, rfl⟩⟩

/-- The body of a function that has one is read after its head. -/
theorem exists_funcParts
    (h : declarations.Reads .spaced (ruleBody .funcDecl) start (some (children, last)))
    {decl : FuncDecl} {body : Body}
    (hdecl : FuncDecl.ofParts ⟨start.offset, last.offset⟩ children = .ok decl)
    (hbody : decl.body = some body) :
    ∃ head stop brace nodes,
      declarations.Reads .spaced funcHead start (some (head, stop)) ∧
        declarations.Reads .token blanksAndComments stop (some ([], brace)) ∧
        declarations.Reads .spaced (.call .funcBody) brace (some (nodes, last)) ∧
        decl.span = ⟨start.offset, last.offset⟩ ∧ Body.ofNodes? nodes = some body ∧
        FuncDecl.ofParts decl.span head = .ok { decl with body := none } := by
  obtain ⟨head, stop, brace, nodes, hhead, hgap, hopt, rfl⟩ := reads_funcHead h
  obtain ⟨hspan, hnodes, hof⟩ := FuncDecl.ofParts_append (isHead_of_reads hhead) hdecl
  rw [hbody] at hnodes
  rw [← hspan] at hof
  rcases hopt.of_opt with hread | ⟨rfl, -⟩
  · exact ⟨head, stop, brace, nodes, hhead, hgap, hread, hspan, hnodes.symm, hof⟩
  · cases hnodes

theorem isVerbatim_func (hstart : (Cursor.start text).Reaches start cs)
    (h : declarations.Reads .spaced (ruleBody .funcDecl) start (some (children, last)))
    {decl : FuncDecl}
    (hdecl : FuncDecl.ofParts ⟨start.offset, last.offset⟩ children = .ok decl) :
    Decl.IsVerbatim text (.func decl) := by
  intro body hbody
  obtain ⟨head, stop, brace, nodes, hhead, hgap, hread, hspan, hnodes, hof⟩ :=
    exists_funcParts h hdecl hbody
  obtain ⟨ds, hds⟩ := hhead.reaches
  obtain ⟨es, hes⟩ := hgap.reaches
  obtain ⟨fs, hfs, hscan, hbalanced⟩ := exists_body hread
  obtain ⟨_, _, _, hopen, -⟩ := exists_group hread nofun rfl
  obtain rfl : body = Body.ofScan fs := Option.some.inj (hnodes.symm.trans hscan)
  have hbrace := hstart.trans (hds.trans hes)
  rw [Body.source_ofScan]
  refine ⟨⟨brace.offset, ⟨?_, ?_⟩, ?_⟩, hbalanced, Body.isCutAtIdentifiers_ofScan fs⟩
  · have hfirst : Cursor.after text decl.span.start = start := by
      rw [hspan, Cursor.after_of_reaches hstart]
    rw [hfirst, Cursor.after_of_reaches hbrace]
    exact ⟨head, stop, hhead, hof, hgap⟩
  · rw [Cursor.after_of_reaches hbrace, hopen.1]
    rfl
  · rw [hspan, Span.source_of_reaches hstart ((hds.trans hes).trans hfs),
      Span.source_of_reaches hstart (hds.trans hes), String.ofList_append]

end Decls

/-! ## 5. Files -/

/-- Whether a declaration is read somewhere in a text. -/
inductive Decl.IsReadFrom (text : String) : Decl → Prop where
  | type (decl : TypeDecl) : IsReadFrom text (.type decl)
  | func {start last : Cursor} {cs : List Char} {children : List Node} {decl : FuncDecl}
      (hstart : (Cursor.start text).Reaches start cs)
      (h : declarations.Reads .spaced (ruleBody .funcDecl) start (some (children, last)))
      (hdecl : FuncDecl.ofParts ⟨start.offset, last.offset⟩ children = .ok decl) :
      IsReadFrom text (.func decl)
  | value {start last : Cursor} {cs : List Char} {children : List Node} {decl : ValueDecl}
      (hstart : (Cursor.start text).Reaches start cs)
      (h : declarations.Reads .tight (ruleBody .valueDecl) start (some (children, last)))
      (hdecl : ValueDecl.ofParts ⟨start.offset, last.offset⟩ children = .ok decl) :
      IsReadFrom text (.value decl)

theorem isReadFrom_of_reads {text : String} {start last : Cursor} {node : Node} {cs : List Char}
    {decls : List Decl} (hstart : (Cursor.start text).Reaches start cs)
    (h : declarations.Reads .spaced (.call node.rule) start (some ([node], last)))
    (hdecls : Decl.listOfNode node = .ok decls) : ∀ decl ∈ decls, decl.IsReadFrom text := by
  obtain ⟨children, hnode, hbody⟩ := h.of_call nofun
  obtain ⟨rule, first, stop, parts⟩ := node
  cases hnode
  unfold Decl.listOfNode at hdecls
  dsimp only at hdecls hbody
  split at hdecls
  · obtain ⟨types, -, hdecls⟩ := bind_eq_ok.mp hdecls
    cases hdecls
    intro decl hmem
    obtain ⟨type, -, rfl⟩ := List.mem_map.mp hmem
    exact .type type
  · obtain ⟨func, hfunc, hdecls⟩ := bind_eq_ok.mp hdecls
    cases hdecls
    intro decl hmem
    cases List.mem_singleton.mp hmem
    exact .func hstart hbody hfunc
  · obtain ⟨value, hvalue, hdecls⟩ := bind_eq_ok.mp hdecls
    cases hdecls
    intro decl hmem
    cases List.mem_singleton.mp hmem
    exact .value hstart hbody hvalue
  · cases hdecls

/-- Whether a file is made of a node for its package clause, and of nodes for the rest. -/
structure SourceFile.IsMadeOf (file : SourceFile) (clause : Node) (items : List Node) : Prop where
  package : clause.rule = .packageClause ∧ clause.children.head?.map Node.text = some file.package
  imports : ∀ spec ∈ file.imports, ∃ item ∈ items, item.rule = .importDecl ∧
    ∃ specs, importsOf item.children = .ok specs ∧ spec ∈ specs
  decls : ∀ decl ∈ file.decls, ∃ item ∈ items,
    ∃ decls, Decl.listOfNode item = .ok decls ∧ decl ∈ decls

theorem SourceFile.exists_items {text : String} {sourceName : Option String}
    {file : SourceFile} (h : SourceFile.parse text sourceName = .ok file) :
    ∃ clause items last, file.IsMadeOf clause items ∧
      declarations.Reads .spaced (ruleBody .sourceFile) (Cursor.start text)
        (some (clause :: items, last)) := by
  unfold SourceFile.parse at h
  split at h
  · cases h
  · rename_i node hparse
    obtain ⟨last, hread⟩ := parse_eq_some_iff.mp hparse
    obtain ⟨read, hnode, h⟩ := bind_eq_ok.mp h
    cases h
    obtain ⟨children, hnodes, hbody⟩ := hread.of_call nofun
    cases hnodes
    unfold SourceFile.ofNode at hnode
    split at hnode
    · rename_i hchildren
      cases hchildren
      obtain ⟨imports, himports, hnode⟩ := bind_eq_ok.mp hnode
      obtain ⟨decls, hdecls, hnode⟩ := bind_eq_ok.mp hnode
      cases hnode
      refine ⟨_, _, last, ⟨⟨rfl, rfl⟩, fun spec hmem => ?_, fun decl hmem => ?_⟩, hbody⟩
      · obtain ⟨specs, hspecs, hspec⟩ := List.mem_flatten.mp hmem
        obtain ⟨item, hitem, hof⟩ := exists_of_mapM himports specs hspecs
        have hrule : item.rule = .importDecl := by simpa using List.mem_takeWhile_imp hitem
        exact ⟨item, (List.takeWhile_prefix _).subset hitem, hrule, specs, hof, hspec⟩
      · obtain ⟨list, hlist, hdecl⟩ := List.mem_flatten.mp hmem
        obtain ⟨item, hitem, hof⟩ := exists_of_mapM hdecls list hlist
        exact ⟨item, (List.dropWhile_suffix _).subset ((List.takeWhile_prefix _).subset hitem),
          list, hof, hdecl⟩
    · cases hnode

/-- Every declaration of a file is read somewhere in its text. -/
theorem SourceFile.isReadFrom_of_parse {text : String} {sourceName : Option String}
    {file : SourceFile} (h : SourceFile.parse text sourceName = .ok file) :
    ∀ decl ∈ file.decls, decl.IsReadFrom text := by
  obtain ⟨clause, items, last, hfile, hbody⟩ := SourceFile.exists_items h
  intro decl hmem
  obtain ⟨item, hitem, decls, hdecls, hdecl⟩ := hfile.decls decl hmem
  obtain ⟨cs, _, hreaches, -, hcall⟩ :=
    hbody.exists_call Mode.noConfusion item (List.mem_cons_of_mem _ hitem)
  exact isReadFrom_of_reads hreaches hcall hdecls decl hdecl

/-- **Every token stream of a file that is read is what stands in the text**: the rest of a function
    from its brace on, with brackets matched, and the rest of a declaration of values after its
    keyword. Both are cut at the identifiers that a scan finds. -/
theorem SourceFile.isVerbatim_of_parse {text : String} {sourceName : Option String}
    {file : SourceFile} (h : SourceFile.parse text sourceName = .ok file) :
    ∀ decl ∈ file.decls, decl.IsVerbatim text := by
  intro decl hmem
  cases SourceFile.isReadFrom_of_parse h decl hmem with
  | type => trivial
  | func hstart h hdecl => exact isVerbatim_func hstart h hdecl
  | value hstart h hdecl => exact isVerbatim_value hstart h hdecl

/-- Brackets and names in a string, a rune, a number and a comment. -/
def methodText : String :=
  "package p\n\nfunc (t T) f() \x7b\n\treturn T\x7ba[0x1f], \"\x7d\", '('\x7d /* T\x7b */\n\x7d" ++
    "\n\nvar v = f(T) // T\n"

theorem SourceFile.isVerbatim_of_parse_method :
    ∃ file, SourceFile.parse methodText none = .ok file ∧ file.decls.length = 2 ∧
      (file.funcDecls.filterMap (·.body)).map Body.identifiers = [["return", "T", "a"]] ∧
        ∀ decl ∈ file.decls, decl.IsVerbatim methodText := by
  have hparse : (SourceFile.parse methodText none).toOption.map (fun file =>
      (file.decls.length, (file.funcDecls.filterMap (·.body)).map Body.identifiers)) =
        some (2, [["return", "T", "a"]]) := by decide +kernel
  cases hfile : SourceFile.parse methodText none with
  | error cause =>
    rw [hfile] at hparse
    cases hparse
  | ok file =>
    rw [hfile] at hparse
    obtain ⟨hlength, hidentifiers⟩ := Prod.mk.inj (Option.some.inj hparse)
    exact ⟨file, rfl, hlength, hidentifiers, SourceFile.isVerbatim_of_parse hfile⟩

end GoStencil
