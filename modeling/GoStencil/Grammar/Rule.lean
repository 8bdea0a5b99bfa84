/-!
# The named rules of the grammar

Every rule that makes a node of the parse tree (`Rule`), in the order in which a failed parse lists
them (`Rule.all`), with the name under which it does so (`Rule.label`).
-/

namespace GoStencil.Grammar

/-- A named rule of the grammar. -/
inductive Rule where
  | endOfInput | reserved | packageWord | importWord | typeWord | funcWord | structWord
  | interfaceWord | mapWord | chanWord | identifier | identifierList | stringLit | rawStringLit
  | runeLit | numberLit | sourceFile | packageClause | importDecl | importGroup | importSpec
  | importName | dotImport | importPath | typeDecl | typeGroup | typeSpec | aliasMarker
  | typeExpr | pointerType | sliceType | arrayType | arrayLen | mapType | recvChanType
  | chanType | sendArrow | funcType | parenType | qualifiedIdent | typeName | signature
  | result | parameters | parameterDecl | namedParameter | paramType | variadicType
  | structType | fieldDecl | namedField | embeddedField | embeddedPointer | fieldTag
  | interfaceType | methodSpec | methodElem | embeddedElem | funcDecl | receiver | funcBody
  | parenGroup | braceGroup | bracketGroup | bodyIdent | bodyText | valueDecl | valueKeyword
  | lineText | typeExprOnly
  deriving DecidableEq, Repr

namespace Rule

/-- All rules in order. -/
def all : List Rule :=
  [.endOfInput, .reserved, .packageWord, .importWord, .typeWord, .funcWord, .structWord,
   .interfaceWord, .mapWord, .chanWord, .identifier, .identifierList, .stringLit,
   .rawStringLit, .runeLit, .numberLit, .sourceFile, .packageClause, .importDecl, .importGroup,
   .importSpec, .importName, .dotImport, .importPath, .typeDecl, .typeGroup, .typeSpec,
   .aliasMarker, .typeExpr, .pointerType, .sliceType, .arrayType, .arrayLen, .mapType,
   .recvChanType, .chanType, .sendArrow, .funcType, .parenType, .qualifiedIdent, .typeName,
   .signature, .result, .parameters, .parameterDecl, .namedParameter, .paramType,
   .variadicType, .structType, .fieldDecl, .namedField, .embeddedField, .embeddedPointer,
   .fieldTag, .interfaceType, .methodSpec, .methodElem, .embeddedElem, .funcDecl, .receiver,
   .funcBody, .parenGroup, .braceGroup, .bracketGroup, .bodyIdent, .bodyText, .valueDecl,
   .valueKeyword, .lineText, .typeExprOnly]

/-- The name under which a failed parse mentions the rule. -/
def label : Rule → String
  | .endOfInput => "EOI"
  | .reserved => "reserved"
  | .packageWord => "package_word"
  | .importWord => "import_word"
  | .typeWord => "type_word"
  | .funcWord => "func_word"
  | .structWord => "struct_word"
  | .interfaceWord => "interface_word"
  | .mapWord => "map_word"
  | .chanWord => "chan_word"
  | .identifier => "identifier"
  | .identifierList => "identifier_list"
  | .stringLit => "string_lit"
  | .rawStringLit => "raw_string_lit"
  | .runeLit => "rune_lit"
  | .numberLit => "number_lit"
  | .sourceFile => "source_file"
  | .packageClause => "package_clause"
  | .importDecl => "import_decl"
  | .importGroup => "import_group"
  | .importSpec => "import_spec"
  | .importName => "import_name"
  | .dotImport => "dot_import"
  | .importPath => "import_path"
  | .typeDecl => "type_decl"
  | .typeGroup => "type_group"
  | .typeSpec => "type_spec"
  | .aliasMarker => "alias_marker"
  | .typeExpr => "type_expr"
  | .pointerType => "pointer_type"
  | .sliceType => "slice_type"
  | .arrayType => "array_type"
  | .arrayLen => "array_len"
  | .mapType => "map_type"
  | .recvChanType => "recv_chan_type"
  | .chanType => "chan_type"
  | .sendArrow => "send_arrow"
  | .funcType => "func_type"
  | .parenType => "paren_type"
  | .qualifiedIdent => "qualified_ident"
  | .typeName => "type_name"
  | .signature => "signature"
  | .result => "result"
  | .parameters => "parameters"
  | .parameterDecl => "parameter_decl"
  | .namedParameter => "named_parameter"
  | .paramType => "param_type"
  | .variadicType => "variadic_type"
  | .structType => "struct_type"
  | .fieldDecl => "field_decl"
  | .namedField => "named_field"
  | .embeddedField => "embedded_field"
  | .embeddedPointer => "embedded_pointer"
  | .fieldTag => "field_tag"
  | .interfaceType => "interface_type"
  | .methodSpec => "method_spec"
  | .methodElem => "method_elem"
  | .embeddedElem => "embedded_elem"
  | .funcDecl => "func_decl"
  | .receiver => "receiver"
  | .funcBody => "func_body"
  | .parenGroup => "paren_group"
  | .braceGroup => "brace_group"
  | .bracketGroup => "bracket_group"
  | .bodyIdent => "body_ident"
  | .bodyText => "body_text"
  | .valueDecl => "value_decl"
  | .valueKeyword => "value_keyword"
  | .lineText => "line_text"
  | .typeExprOnly => "type_expr_only"

end Rule

end GoStencil.Grammar
