import GoStencil.TypeExpr.Parser

/-!
# Source files from parse trees

* `Segment.ofNode`: the token stream of a node, brackets of groups included.
* `SourceFile.ofNode`: the file a tree stands for. Only here can an import path be refused.
* `SourceFile.parse`: the file that a text writes.
-/

namespace GoStencil

open Grammar

/-- The bytes a node stands for. -/
def Grammar.Node.span (node : Node) : Span :=
  ⟨node.start.offset, node.stop.offset⟩

/-! ## 1. Token streams -/

/-- The brackets around the parts of a group. -/
def groupBrackets? : Rule → Option (String × String)
  | .parenGroup => some ("(", ")")
  | .braceGroup | .funcBody => some ("\x7b", "\x7d")
  | .bracketGroup => some ("[", "]")
  | _ => none

mutual

/-- The segments that a node of a stream stands for. -/
def Segment.ofNode : Node → List Segment
  | ⟨rule, start, stop, parts⟩ =>
    match groupBrackets? rule with
    | some (opening, closing) => .text opening :: (Segment.ofNodes parts ++ [.text closing])
    | none =>
      let source := String.ofList (start.upTo stop)
      [if rule = .bodyIdent then .ident source else .text source]

/-- The segments that some nodes of a stream stand for. -/
def Segment.ofNodes : List Node → List Segment
  | [] => []
  | node :: rest => Segment.ofNode node ++ Segment.ofNodes rest

end

/-! ## 2. Imports -/

/-- The path between the quotes of an import path node. -/
def importPathOf (node : Node) : Parsed String :=
  let path := node.chars.tail.dropLast
  if path.isEmpty || path.any Text.isBlank then
    .error (.invalidImportPath node.text node.span)
  else
    .ok (String.ofList path)

/-- The import that a node stands for. -/
def ImportSpec.ofNode : Node → Parsed ImportSpec
  | ⟨.importSpec, start, stop, [name, path]⟩ =>
    return ⟨some name.text, ← importPathOf path, ⟨start.offset, stop.offset⟩⟩
  | ⟨.importSpec, start, stop, [path]⟩ =>
    return ⟨none, ← importPathOf path, ⟨start.offset, stop.offset⟩⟩
  | node => .error (.malformedTree node.rule)

/-- The imports of an import declaration, grouped or not. -/
def importsOf : List Node → Parsed (List ImportSpec)
  | ⟨.importGroup, _, _, specs⟩ :: _ => specs.mapM ImportSpec.ofNode
  | specs => specs.mapM ImportSpec.ofNode

/-! ## 3. Declarations -/

/-- The type declaration that a node stands for. -/
def TypeDecl.ofNode : Node → Parsed TypeDecl
  | ⟨.typeSpec, start, stop, [name, ⟨.aliasMarker, _, _, _⟩, type]⟩ =>
    return ⟨name.text, true, ← TypeExpr.ofNode type, ⟨start.offset, stop.offset⟩⟩
  | ⟨.typeSpec, start, stop, [name, type]⟩ =>
    return ⟨name.text, false, ← TypeExpr.ofNode type, ⟨start.offset, stop.offset⟩⟩
  | node => .error (.malformedTree node.rule)

/-- The declarations of a type declaration, grouped or not. -/
def typeDeclsOf : List Node → Parsed (List TypeDecl)
  | ⟨.typeGroup, _, _, specs⟩ :: _ => specs.mapM TypeDecl.ofNode
  | specs => specs.mapM TypeDecl.ofNode

/-- The body of a function, when it has one. -/
def Body.ofNodes? : List Node → Option Body
  | [] => none
  | node :: _ => some (Body.ofSegments (Segment.ofNode node))

/-- The function declaration whose node has the given children. -/
def FuncDecl.ofParts (span : Span) : List Node → Parsed FuncDecl
  | ⟨.receiver, _, _, ⟨_, _, _, receiver⟩ :: _⟩ :: name :: signature :: body => do
    let receiver ← FieldList.ofParameters receiver
    let (params, results) ← signatureOf signature
    return ⟨name.text, some receiver, params, results, Body.ofNodes? body, span⟩
  | name :: signature :: body => do
    let (params, results) ← signatureOf signature
    return ⟨name.text, none, params, results, Body.ofNodes? body, span⟩
  | _ => .error (.malformedTree .funcDecl)

/-- The value declaration whose node has the given children. -/
def ValueDecl.ofParts (span : Span) : List Node → Parsed ValueDecl
  | keyword :: parts =>
    let word := if keyword.text == "const" then ValueKeyword.const else .var
    return ⟨word, Body.ofSegments (Segment.ofNodes parts), span⟩
  | _ => .error (.malformedTree .valueDecl)

/-- The declarations that a top level node stands for. -/
def Decl.listOfNode (node : Node) : Parsed (List Decl) :=
  match node.rule with
  | .typeDecl => return (← typeDeclsOf node.children).map .type
  | .funcDecl => return [.func (← FuncDecl.ofParts node.span node.children)]
  | .valueDecl => return [.value (← ValueDecl.ofParts node.span node.children)]
  | rule => .error (.malformedTree rule)

/-! ## 4. Files -/

/-- The items of a file after its package clause: imports, then declarations, then the end. -/
def SourceFile.ofItems (package : String) (items : List Node) : Parsed SourceFile := do
  let imports := items.takeWhile (·.rule = .importDecl)
  let decls := (items.dropWhile (·.rule = .importDecl)).takeWhile (·.rule ≠ .endOfInput)
  let imports ← imports.mapM (importsOf ·.children)
  let decls ← decls.mapM Decl.listOfNode
  return ⟨package, imports.flatten, decls.flatten, none⟩

/-- The file that a tree stands for. -/
def SourceFile.ofNode : Node → Parsed SourceFile
  | ⟨.sourceFile, _, _, ⟨.packageClause, _, _, name :: _⟩ :: items⟩ =>
    SourceFile.ofItems name.text items
  | node => .error (.malformedTree node.rule)

/-- The file that a text writes. -/
def SourceFile.parse (text : String) (sourceName : Option String) : Parsed SourceFile :=
  match declarations.parse .sourceFile text with
  | none => .error .rejected
  | some node => return { ← SourceFile.ofNode node with sourceName }

end GoStencil
