import GoStencil.Grammar.Pattern
import GoStencil.Text.Identifier

/-!
# The grammar of Go declarations

The package clause, imports, type declarations and the whole language of types. The bodies of
functions and the values of variables and constants are streams of tokens, in which only
identifiers, literals, comments and brackets are told apart.

Line ends are significant, because a declaration may end there; they are read by `newlines` and
`separator`, never as part of a gap.
-/

namespace GoStencil.Grammar

/-! ## 1. Building blocks -/

namespace Pattern

/-- The given text. -/
def text (s : String) : Pattern :=
  .literal s.toList

/-- One pattern after the other. -/
def inOrder : List Pattern → Pattern
  | [] => .literal []
  | [pattern] => pattern
  | pattern :: rest => .seq pattern (inOrder rest)

/-- The first pattern that fits. -/
def oneOf : List Pattern → Pattern
  | [] => .notAhead (.literal [])
  | [pattern] => pattern
  | pattern :: rest => .alt pattern (oneOf rest)

/-- The pattern at least once. -/
def atLeastOnce (pattern : Pattern) : Pattern :=
  .seq pattern (.many pattern)

/-- Any one character. -/
def anyChar : Pattern :=
  .satisfy fun _ => true

/-- Any one character at which the pattern does not fit. -/
def anyCharBut (pattern : Pattern) : Pattern :=
  .seq (.notAhead pattern) anyChar

/-- A decimal digit. -/
def digit : Pattern :=
  .satisfy Char.isDigit

/-- A character that continues an identifier. -/
def identifierChar : Pattern :=
  .satisfy Text.isXidContinue

/-- A character that starts an identifier. -/
def identifierStart : Pattern :=
  .satisfy Text.isIdentifierStart

/-- A line end. -/
def newline : Pattern :=
  oneOf [text "\n", text "\r\n", text "\r"]

/-- A comment up to the end of its line. -/
def lineComment : Pattern :=
  .seq (text "//") (.many (anyCharBut newline))

/-- A comment between `/*` and `*/`. -/
def blockComment : Pattern :=
  inOrder [text "/*", .many (anyCharBut (text "*/")), text "*/"]

/-- Blanks and comments. -/
def blanksAndComments : Pattern :=
  let blanks := Pattern.many (oneOf [text " ", text "\t"])
  .seq blanks (.many (.seq (oneOf [lineComment, blockComment]) blanks))

/-- Line ends and semicolons, at least one. -/
def separator : Pattern :=
  atLeastOnce (oneOf [newline, text ";"])

/-- Any number of line ends. -/
def newlines : Pattern :=
  .many newline

/-- A word that no character continues. -/
def wholeWord (word : String) : Pattern :=
  .seq (text word) (.notAhead identifierChar)

/-- A keyword: the word itself, where the rule for the whole word fits. -/
def keyword (rule : Rule) (word : String) : Pattern :=
  .seq (.ahead (.call rule)) (text word)

/-- Items with separators between them and perhaps one after the last. -/
def separated (item : Pattern) : Pattern :=
  inOrder [item, .many (.seq separator item), .opt separator]

/-- The inside of a literal between two of the given quotes, with escapes. -/
def quoted (quote : String) : Pattern :=
  inOrder
    [text quote,
     .many (oneOf [.seq (text "\\") anyChar, anyCharBut (oneOf [text quote, newline])]),
     text quote]

/-- A bracket of any kind. -/
def bracket : Pattern :=
  oneOf [text "(", text ")", text "\x7b", text "\x7d", text "[", text "]"]

/-- What is one item of the text of a stream: a literal, a comment or a number. -/
def textItems : List Pattern :=
  [.call .stringLit, .call .rawStringLit, .call .runeLit, lineComment, blockComment,
   .call .numberLit]

/-- Where a run of plain text in a stream stops. -/
def textStops : List Pattern :=
  [bracket, identifierStart, text "\"", text "\x60", text "'", text "//", text "/*", digit]

/-- Text of a stream, of which a plain character is none of the given stops. -/
def streamText (stops : List Pattern) : Pattern :=
  atLeastOnce (oneOf (textItems ++ [anyCharBut (oneOf stops)]))

/-- One part of a stream whose text is read by the given rule. -/
def streamPart (textRule : Rule) : Pattern :=
  oneOf
    [.call .bodyIdent, .call .parenGroup, .call .braceGroup, .call .bracketGroup, .call textRule]

/-- A group of parts between two brackets. -/
def group (opening closing : String) : Pattern :=
  inOrder [text opening, .many (streamPart .bodyText), text closing]

end Pattern

open Pattern

/-- The words that are no identifiers. A word stands after those it begins with. -/
def reservedWords : List String :=
  ["break", "case", "chan", "const", "continue", "default", "defer", "else", "fallthrough", "for",
   "func", "goto", "go", "if", "import", "interface", "map", "package", "range", "return",
   "select", "struct", "switch", "type", "var"]

/-! ## 2. The rules -/

/-- What each rule reads. -/
def ruleBody : Rule → Pattern
  | .endOfInput => .atEnd
  -- words
  | .reserved => .seq (oneOf (reservedWords.map text)) (.notAhead identifierChar)
  | .packageWord => wholeWord "package"
  | .importWord => wholeWord "import"
  | .typeWord => wholeWord "type"
  | .funcWord => wholeWord "func"
  | .structWord => wholeWord "struct"
  | .interfaceWord => wholeWord "interface"
  | .mapWord => wholeWord "map"
  | .chanWord => wholeWord "chan"
  | .identifier =>
    inOrder [.notAhead (.call .reserved), identifierStart, .many identifierChar]
  | .identifierList =>
    .seq (.call .identifier) (.many (inOrder [text ",", newlines, .call .identifier]))
  -- literals
  | .stringLit => quoted "\""
  | .rawStringLit =>
    inOrder [text "\x60", .many (anyCharBut (text "\x60")), text "\x60"]
  | .runeLit => quoted "'"
  | .numberLit => .seq digit (.many (oneOf [identifierChar, .seq (text ".") digit]))
  -- files and imports
  | .sourceFile =>
    inOrder
      [.atStart, newlines, .call .packageClause,
       .many (.seq separator (.call .importDecl)),
       .many (.seq separator (oneOf [.call .typeDecl, .call .funcDecl, .call .valueDecl])),
       .opt separator, .call .endOfInput]
  | .packageClause => .seq (keyword .packageWord "package") (.call .identifier)
  | .importDecl =>
    .seq (keyword .importWord "import") (oneOf [.call .importGroup, .call .importSpec])
  | .importGroup =>
    inOrder [text "(", newlines, .opt (separated (.call .importSpec)), text ")"]
  | .importSpec => .seq (.opt (.call .importName)) (.call .importPath)
  | .importName => oneOf [.call .dotImport, .call .identifier]
  | .dotImport => text "."
  | .importPath => oneOf [.call .stringLit, .call .rawStringLit]
  -- type declarations
  | .typeDecl => .seq (keyword .typeWord "type") (oneOf [.call .typeGroup, .call .typeSpec])
  | .typeGroup =>
    inOrder [text "(", newlines, .opt (separated (.call .typeSpec)), text ")"]
  | .typeSpec => inOrder [.call .identifier, .opt (.call .aliasMarker), .call .typeExpr]
  | .aliasMarker => text "="
  -- type expressions
  | .typeExpr =>
    oneOf
      [.call .pointerType, .call .sliceType, .call .arrayType, .call .mapType,
       .call .recvChanType, .call .chanType, .call .funcType, .call .structType,
       .call .interfaceType, .call .parenType, .call .qualifiedIdent, .call .typeName]
  | .pointerType => .seq (text "*") (.call .typeExpr)
  | .sliceType => inOrder [text "[", text "]", .call .typeExpr]
  | .arrayType => inOrder [text "[", .call .arrayLen, text "]", .call .typeExpr]
  | .arrayLen => atLeastOnce (anyCharBut (oneOf [text "]", newline]))
  | .mapType =>
    inOrder
      [keyword .mapWord "map", text "[", .call .typeExpr, text "]", .call .typeExpr]
  | .recvChanType => inOrder [text "<-", keyword .chanWord "chan", .call .typeExpr]
  | .chanType =>
    inOrder [keyword .chanWord "chan", .opt (.call .sendArrow), .call .typeExpr]
  | .sendArrow => text "<-"
  | .funcType => .seq (keyword .funcWord "func") (.call .signature)
  | .parenType => inOrder [text "(", newlines, .call .typeExpr, newlines, text ")"]
  | .qualifiedIdent => inOrder [.call .identifier, text ".", .call .identifier]
  | .typeName => .call .identifier
  -- signatures
  | .signature => .seq (.call .parameters) (.opt (.call .result))
  | .result => oneOf [.call .parameters, .call .typeExpr]
  | .parameters =>
    inOrder
      [text "(", newlines,
       .opt (inOrder
        [.call .parameterDecl,
         .many (inOrder [text ",", newlines, .call .parameterDecl]),
         .opt (text ",")]),
       newlines, text ")"]
  | .parameterDecl => oneOf [.call .namedParameter, .call .paramType]
  | .namedParameter => .seq (.call .identifierList) (.call .paramType)
  | .paramType => oneOf [.call .variadicType, .call .typeExpr]
  | .variadicType => .seq (text "...") (.call .typeExpr)
  -- structs and interfaces
  | .structType =>
    inOrder
      [keyword .structWord "struct", text "\x7b", newlines,
       .opt (separated (.call .fieldDecl)), text "\x7d"]
  | .fieldDecl =>
    .seq (oneOf [.call .namedField, .call .embeddedField]) (.opt (.call .fieldTag))
  | .namedField => .seq (.call .identifierList) (.call .typeExpr)
  | .embeddedField =>
    .seq (.opt (.call .embeddedPointer)) (oneOf [.call .qualifiedIdent, .call .typeName])
  | .embeddedPointer => text "*"
  | .fieldTag => oneOf [.call .stringLit, .call .rawStringLit]
  | .interfaceType =>
    inOrder
      [keyword .interfaceWord "interface", text "\x7b", newlines,
       .opt (separated (.call .methodSpec)), text "\x7d"]
  | .methodSpec => oneOf [.call .methodElem, .call .embeddedElem]
  | .methodElem => .seq (.call .identifier) (.call .signature)
  | .embeddedElem => oneOf [.call .qualifiedIdent, .call .typeName]
  -- functions
  | .funcDecl =>
    inOrder
      [keyword .funcWord "func", .opt (.call .receiver), .call .identifier, .call .signature,
       .opt (.call .funcBody)]
  | .receiver => .call .parameters
  -- streams
  | .funcBody => group "\x7b" "\x7d"
  | .parenGroup => group "(" ")"
  | .braceGroup => group "\x7b" "\x7d"
  | .bracketGroup => group "[" "]"
  | .bodyIdent => .seq identifierStart (.many identifierChar)
  | .bodyText => streamText textStops
  -- values
  | .valueDecl => .seq (.call .valueKeyword) (atLeastOnce (streamPart .lineText))
  | .valueKeyword => .seq (oneOf [text "var", text "const"]) (.notAhead identifierChar)
  | .lineText => streamText (newline :: text ";" :: textStops)
  -- a type on its own
  | .typeExprOnly => inOrder [.atStart, .call .typeExpr, .call .endOfInput]

/-- How each rule is read. -/
def ruleKind : Rule → RuleKind
  | .reserved | .packageWord | .importWord | .typeWord | .funcWord | .structWord
  | .interfaceWord | .mapWord | .chanWord | .identifier | .stringLit | .rawStringLit | .runeLit
  | .numberLit | .importPath | .arrayLen | .fieldTag | .bodyIdent | .bodyText | .valueKeyword
  | .lineText => .token
  | .qualifiedIdent | .funcBody | .parenGroup | .braceGroup | .bracketGroup | .valueDecl =>
    .compound
  | _ => .phrase

/-- The grammar of declarations. -/
def declarations : Grammar :=
  ⟨blanksAndComments, ruleKind, ruleBody⟩

end GoStencil.Grammar
