import GoStencil.SourceFile
import GoStencil.Substitution
import GoStencil.Text.Blank
import GoStencil.Text.Search

/-!
# Applying a substitution

Every bound name of a type, and every unnamed empty interface, is replaced by what it is bound to;
what is put in is not looked at again. In token streams an identifier is replaced unless the text
around it is that of a selected name (`x.T`) or of a key of a composite literal (`Box\x7bT: v\x7d`).
That is told from the raw text: a type that ends a list of cases on its second line passes for a
key, and a name on the line after its dot does not pass for a selected one.

* `TypeExpr.instantiate`, `FieldList.instantiate`: types.
* `Body.instantiate`: token streams.
* `SourceFile.instantiate`: whole files. A type declaration takes the name that its own name is
  bound to.
-/

namespace GoStencil

/-! ## 1. Types -/

/-- Whether the type is a channel, without parentheses around it. -/
def TypeExpr.isChannel : TypeExpr → Bool
  | .channel .. => true
  | _ => false

/-- The value type of a channel once everything bound is replaced: a channel that was put in for
    something else gets parentheses. -/
def channelValue (before after : TypeExpr) : TypeExpr :=
  if after.isChannel && !before.isChannel then .paren after else after

mutual

/-- The type with everything bound replaced. -/
def TypeExpr.instantiate (subst : Substitution) : TypeExpr → TypeExpr
  | .name ident => (subst.getName? ident).getD (.name ident)
  | .qualified package ident => .qualified package ident
  | .pointer elem => .pointer (elem.instantiate subst)
  | .array length elem => .array length (elem.instantiate subst)
  | .variadic elem => .variadic (elem.instantiate subst)
  | .paren inner => .paren (inner.instantiate subst)
  | .channel direction value =>
    .channel direction (channelValue value (value.instantiate subst))
  | .map key value => .map (key.instantiate subst) (value.instantiate subst)
  | .function params results => .function (params.instantiate subst) (results.instantiate subst)
  | .struct fields => .struct (fields.instantiate subst)
  | .interface .nil => subst.universal?.getD .emptyInterface
  | .interface members => .interface (members.instantiate subst)

/-- The list with the types of its entries instantiated. -/
def FieldList.instantiate (subst : Substitution) : FieldList → FieldList
  | .nil => .nil
  | .cons names type tag rest => .cons names (type.instantiate subst) tag (rest.instantiate subst)

end

/-! ## 2. Token streams -/

/-- Whether what precedes an identifier, last segment first, ends with the dot of a selector. -/
def followsSelector : List Segment → Bool
  | .text text :: _ => Text.endsWith text "." && !Text.endsWith text "..."
  | _ => false

/-- Whether what follows an identifier is a colon that does not begin `:=`. -/
def precedesColon : List Segment → Bool
  | .text text :: _ =>
    match Text.dropBlank text.toList with
    | ':' :: '=' :: _ => false
    | ':' :: _ => true
    | _ => false
  | _ => false

/-- Whether what precedes an identifier, last segment first, ends with an opening brace or a
    comma. -/
def opensElement : List Segment → Bool
  | .text text :: _ =>
    match Text.dropBlank text.toList.reverse with
    | '\x7b' :: _ | ',' :: _ => true
    | _ => false
  | _ => false

/-- Whether the last of some segments, given last first, to be the word `case` or to hold a line
    end, a semicolon or an opening brace is the word. -/
def insideCaseClause : List Segment → Bool
  | [] => false
  | .ident word :: rest => word == "case" || insideCaseClause rest
  | .text text :: rest =>
    !text.toList.any (fun c => c == '\n' || c == ';' || c == '\x7b') && insideCaseClause rest

/-- Whether an identifier is taken for a key of a composite literal: it stands between an opening
    brace or a comma and a colon, and not behind the word `case` on its line, which a semicolon or
    an opening brace ends as well. -/
def isCompositeKey (before after : List Segment) : Bool :=
  precedesColon after && opensElement before && !insideCaseClause before

/-- Whether what precedes an identifier, last segment first, is the word `chan`, perhaps with an
    arrow. -/
def followsChanKeyword : List Segment → Bool
  | .text between :: .ident word :: _ =>
    word == "chan" && (Text.trim between == "" || Text.trim between == "<-")
  | _ => false

/-- What stands for a bound identifier. A channel after `chan` gets parentheses. -/
def boundSegment (before : List Segment) (bound : TypeExpr) : Segment :=
  match bound with
  | .name ident => .ident ident
  | .channel direction value =>
    let text := (TypeExpr.channel direction value).render
    .text (if followsChanKeyword before then "(" ++ text ++ ")" else text)
  | other => .text other.render

/-- What stands for a segment between the segments before it, given last first, and those after
    it. -/
def instantiateSegment (subst : Substitution) (before : List Segment) (segment : Segment)
    (after : List Segment) : Segment :=
  match segment with
  | .text text => .text text
  | .ident ident =>
    match subst.getName? ident with
    | none => .ident ident
    | some bound =>
      if followsSelector before || isCompositeKey before after then .ident ident
      else boundSegment before bound

/-- What stands for some segments after those in `before`, given last first. -/
def instantiateSegments (subst : Substitution) : List Segment → List Segment → List Segment
  | _, [] => []
  | before, segment :: after =>
    instantiateSegment subst before segment after ::
      instantiateSegments subst (segment :: before) after

/-- The stream with everything bound replaced. -/
def Body.instantiate (subst : Substitution) (body : Body) : Body :=
  Body.ofSegments (instantiateSegments subst [] body.segments)

/-! ## 3. Files -/

/-- The name of a declaration whose name may be bound to another name. -/
def declNameUnder (subst : Substitution) (ident : String) : String :=
  match subst.getName? ident with
  | some (.name renamed) => renamed
  | _ => ident

/-- The declaration with everything bound replaced. -/
def Decl.instantiate (subst : Substitution) : Decl → Decl
  | .type decl =>
    .type { decl with
      name := declNameUnder subst decl.name, type := decl.type.instantiate subst }
  | .func decl =>
    .func { decl with
      receiver := decl.receiver.map (FieldList.instantiate subst)
      params := decl.params.instantiate subst
      results := decl.results.instantiate subst
      body := decl.body.map (Body.instantiate subst) }
  | .value decl => .value { decl with body := decl.body.instantiate subst }

/-- The file with everything bound replaced. -/
def SourceFile.instantiate (subst : Substitution) (file : SourceFile) : SourceFile :=
  { file with decls := file.decls.map (Decl.instantiate subst) }

end GoStencil
