import GoStencil.Grammar.Declarations
import GoStencil.ParseError
import GoStencil.Text.Blank

/-!
# Type expressions from parse trees

Each rule of the grammar of types stands for one form of type, and its node's children are the
parts. A tree of any other shape is refused, which never happens to a tree the grammar made.

* `TypeExpr.ofNode`, `FieldList.ofParameters`, `FieldList.ofFields`, `FieldList.ofMembers`.
* `TypeExpr.parse`: the type that a text writes.
-/

namespace GoStencil

open Grammar

/-- The result of reading a tree. -/
abbrev Parsed := Except ParseError

/-- The identifiers of a list of names. -/
def identifiersOf (list : Node) : List String :=
  list.children.map Node.text

mutual

/-- The type that a node of a type rule stands for. -/
def TypeExpr.ofNode : Node → Parsed TypeExpr
  | ⟨.typeExpr, _, _, form :: _⟩ => TypeExpr.ofNode form
  | ⟨.typeName, _, _, ident :: _⟩ => .ok (.name ident.text)
  | ⟨.qualifiedIdent, _, _, package :: ident :: _⟩ => .ok (.qualified package.text ident.text)
  | ⟨.pointerType, _, _, elem :: _⟩ => return .pointer (← TypeExpr.ofNode elem)
  | ⟨.sliceType, _, _, elem :: _⟩ => return .array none (← TypeExpr.ofNode elem)
  | ⟨.arrayType, _, _, length :: elem :: _⟩ =>
    return .array (some (Text.trim length.text)) (← TypeExpr.ofNode elem)
  | ⟨.mapType, _, _, key :: value :: _⟩ =>
    return .map (← TypeExpr.ofNode key) (← TypeExpr.ofNode value)
  | ⟨.recvChanType, _, _, value :: _⟩ =>
    return .channel .receive (← TypeExpr.ofNode value)
  | ⟨.chanType, _, _, ⟨.sendArrow, _, _, _⟩ :: value :: _⟩ =>
    return .channel .send (← TypeExpr.ofNode value)
  | ⟨.chanType, _, _, value :: _⟩ => return .channel .both (← TypeExpr.ofNode value)
  | ⟨.funcType, _, _, ⟨_, _, _, ⟨_, _, _, params⟩ :: results⟩ :: _⟩ =>
    return .function (← FieldList.ofParameters params) (← FieldList.ofResults results)
  | ⟨.structType, _, _, fields⟩ => return .struct (← FieldList.ofFields fields)
  | ⟨.interfaceType, _, _, members⟩ => return .interface (← FieldList.ofMembers members)
  | ⟨.parenType, _, _, inner :: _⟩ => return .paren (← TypeExpr.ofNode inner)
  | ⟨.variadicType, _, _, elem :: _⟩ => return .variadic (← TypeExpr.ofNode elem)
  | ⟨rule, _, _, _⟩ => .error (.malformedTree rule)

/-- The list that the nodes of some parameters stand for. -/
def FieldList.ofParameters : List Node → Parsed FieldList
  | [] => .ok .nil
  | ⟨_, _, _, ⟨.namedParameter, _, _, names :: ⟨_, _, _, type :: _⟩ :: _⟩ :: _⟩ :: rest =>
    return .cons (identifiersOf names) (← TypeExpr.ofNode type) none
      (← FieldList.ofParameters rest)
  | ⟨_, _, _, ⟨.paramType, _, _, type :: _⟩ :: _⟩ :: rest =>
    return .cons [] (← TypeExpr.ofNode type) none (← FieldList.ofParameters rest)
  | ⟨rule, _, _, _⟩ :: _ => .error (.malformedTree rule)

/-- The list that what follows the parameters of a signature stands for. -/
def FieldList.ofResults : List Node → Parsed FieldList
  | [] => .ok .nil
  | ⟨_, _, _, ⟨.parameters, _, _, params⟩ :: _⟩ :: _ => FieldList.ofParameters params
  | ⟨_, _, _, ⟨.typeExpr, start, stop, form⟩ :: _⟩ :: _ =>
    return .cons [] (← TypeExpr.ofNode ⟨.typeExpr, start, stop, form⟩) none .nil
  | ⟨rule, _, _, _⟩ :: _ => .error (.malformedTree rule)

/-- The list that the nodes of some struct fields stand for. -/
def FieldList.ofFields : List Node → Parsed FieldList
  | [] => .ok .nil
  | ⟨_, _, _, ⟨.namedField, _, _, names :: type :: _⟩ :: tag⟩ :: rest =>
    return .cons (identifiersOf names) (← TypeExpr.ofNode type) (tag.head?.map Node.text)
      (← FieldList.ofFields rest)
  | ⟨_, _, _, ⟨.embeddedField, _, _, ⟨.embeddedPointer, _, _, _⟩ :: type :: _⟩ :: tag⟩ :: rest =>
    return .cons [] (.pointer (← TypeExpr.ofNode type)) (tag.head?.map Node.text)
      (← FieldList.ofFields rest)
  | ⟨_, _, _, ⟨.embeddedField, _, _, type :: _⟩ :: tag⟩ :: rest =>
    return .cons [] (← TypeExpr.ofNode type) (tag.head?.map Node.text)
      (← FieldList.ofFields rest)
  | ⟨rule, _, _, _⟩ :: _ => .error (.malformedTree rule)

/-- The list that the nodes of some interface members stand for. -/
def FieldList.ofMembers : List Node → Parsed FieldList
  | [] => .ok .nil
  | ⟨_, _, _, ⟨.methodElem, _, _, name :: ⟨_, _, _, ⟨_, _, _, params⟩ :: results⟩ :: _⟩ :: _⟩ ::
      rest =>
    return .cons [name.text]
      (.function (← FieldList.ofParameters params) (← FieldList.ofResults results)) none
      (← FieldList.ofMembers rest)
  | ⟨_, _, _, ⟨.embeddedElem, _, _, type :: _⟩ :: _⟩ :: rest =>
    return .cons [] (← TypeExpr.ofNode type) none (← FieldList.ofMembers rest)
  | ⟨rule, _, _, _⟩ :: _ => .error (.malformedTree rule)

end

/-- The parameters and results that a signature node stands for. -/
def signatureOf : Node → Parsed (FieldList × FieldList)
  | ⟨_, _, _, ⟨_, _, _, params⟩ :: results⟩ =>
    return (← FieldList.ofParameters params, ← FieldList.ofResults results)
  | ⟨rule, _, _, _⟩ => .error (.malformedTree rule)

/-- The type that a text writes, blanks and comments aside. -/
def TypeExpr.parse (text : String) : Parsed TypeExpr :=
  match declarations.parse .typeExprOnly text with
  | none => .error .rejected
  | some ⟨_, _, _, type :: _⟩ => TypeExpr.ofNode type
  | some ⟨rule, _, _, _⟩ => .error (.malformedTree rule)

end GoStencil
