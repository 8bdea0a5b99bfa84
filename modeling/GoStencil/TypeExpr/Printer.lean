import GoStencil.TypeExpr

/-!
# Type expressions on one line

How a type expression is written on a single line of Go. A channel of an unparenthesised
receive channel gets parentheses, because `chan <-chan T` would read as `chan<- chan T`.
-/

namespace GoStencil

/-- The words that open a channel type. -/
def Direction.keyword : Direction → String
  | .both => "chan"
  | .send => "chan<-"
  | .receive => "<-chan"

/-- The direction in words. -/
def Direction.describe : Direction → String
  | .both => "bidirectional"
  | .send => "send-only"
  | .receive => "receive-only"

/-- Whether the value type of a channel has to be put in parentheses. -/
def needsParens : Direction → TypeExpr → Bool
  | .both, .channel .receive _ => true
  | _, _ => false

/-- An entry with its names, its type as written and its tag. -/
def renderEntry (names : List String) (type : String) (tag : Option String) : String :=
  let typed := if names.isEmpty then type else ", ".intercalate names ++ " " ++ type
  match tag with
  | none => typed
  | some tag => typed ++ " " ++ tag

mutual

/-- The type as Go source on one line. -/
def TypeExpr.render : TypeExpr → String
  | .name ident => ident
  | .qualified package ident => package ++ "." ++ ident
  | .pointer elem => "*" ++ elem.render
  | .array none elem => "[]" ++ elem.render
  | .array (some length) elem => "[" ++ length ++ "]" ++ elem.render
  | .variadic elem => "..." ++ elem.render
  | .paren inner => "(" ++ inner.render ++ ")"
  | .channel direction value =>
    if needsParens direction value then direction.keyword ++ " (" ++ value.render ++ ")"
    else direction.keyword ++ " " ++ value.render
  | .map key value => "map[" ++ key.render ++ "]" ++ value.render
  | .function params results =>
    "func(" ++ ", ".intercalate params.renderEntries ++ ")" ++ results.renderResults
  | .struct .nil => "struct\x7b\x7d"
  | .struct fields => "struct \x7b " ++ "; ".intercalate fields.renderEntries ++ " \x7d"
  | .interface .nil => "interface\x7b\x7d"
  | .interface members => "interface \x7b " ++ "; ".intercalate members.renderMembers ++ " \x7d"

/-- Each entry as written. -/
def FieldList.renderEntries : FieldList → List String
  | .nil => []
  | .cons names type tag rest => renderEntry names type.render tag :: rest.renderEntries

/-- A result list as it follows the parameters: nothing, a single unnamed type, or a list in
    parentheses. -/
def FieldList.renderResults : FieldList → String
  | .nil => ""
  | .cons [] type _ .nil => " " ++ type.render
  | .cons names type tag rest =>
    " (" ++ ", ".intercalate (renderEntry names type.render tag :: rest.renderEntries) ++ ")"

/-- Each interface member as written: a method as its first name and signature, any other member
    as its type alone. -/
def FieldList.renderMembers : FieldList → List String
  | .nil => []
  | .cons (name :: _) (.function params results) _ rest =>
    (name ++ "(" ++ ", ".intercalate params.renderEntries ++ ")" ++ results.renderResults) ::
      rest.renderMembers
  | .cons _ type _ rest => type.render :: rest.renderMembers

end

/-- Parameters and results as they follow `func` or the name of a method. -/
def renderSignature (params results : FieldList) : String :=
  "(" ++ ", ".intercalate params.renderEntries ++ ")" ++ results.renderResults

/-- A list of parameters in parentheses. -/
def FieldList.render (fields : FieldList) : String :=
  "(" ++ ", ".intercalate fields.renderEntries ++ ")"

/-- An entry as written. -/
def Field.render (field : Field) : String :=
  renderEntry field.names field.type.render field.tag

instance : ToString TypeExpr := ⟨TypeExpr.render⟩

end GoStencil
