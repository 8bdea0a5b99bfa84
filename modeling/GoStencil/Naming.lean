import GoStencil.TypeExpr
import GoStencil.Text.Case
import GoStencil.Text.Search

/-!
# Names for types

A readable piece of a name for any type, and the name of a related type such as `_Fan`, in which
each marker is replaced by the piece for what the type refers to.

* `TypeExpr.niceName`: `[]int` is `IntSlice`, `map[int]string` is `StringMapByInt`.
* `relatedName`: the name of a related type for a given choice of pieces.
-/

namespace GoStencil

/-- What a channel is called. -/
def Direction.noun : Direction → String
  | .both => "Chan"
  | .send => "SendChan"
  | .receive => "RecvChan"

mutual

/-- A piece of a name for a type. -/
def TypeExpr.niceName : TypeExpr → String
  | .name ident => Text.capitalize ident
  | .qualified package ident => Text.capitalize package ++ Text.capitalize ident
  | .pointer elem => elem.niceName ++ "Pointer"
  | .array none elem => elem.niceName ++ "Slice"
  | .array (some _) elem => elem.niceName ++ "Array"
  | .variadic elem => elem.niceName ++ "Slice"
  | .paren inner => inner.niceName
  | .channel direction value => value.niceName ++ direction.noun
  | .map key value => value.niceName ++ "MapBy" ++ key.niceName
  | .function params .nil => "Func" ++ params.niceNames
  | .function params results => "Func" ++ params.niceNames ++ "To" ++ results.niceNames
  | .struct _ => "Struct"
  | .interface _ => "Interface"

/-- The pieces for all entries of a list, one after the other. -/
def FieldList.niceNames : FieldList → String
  | .nil => ""
  | .cons names type _ rest =>
    String.join (List.replicate (entryCount names) type.niceName) ++ rest.niceNames

end

/-- The pieces of a name with the replacements between them; where these run out, the fallback
    stands. -/
def fillMarkers (fallback : String) : List String → List String → String
  | [], _ => ""
  | piece :: pieces, [] => fallback ++ piece ++ fillMarkers fallback pieces []
  | piece :: pieces, name :: names => name ++ piece ++ fillMarkers fallback pieces names

/-- The name of a related type: each marker in it, from left to right, is replaced by the name of
    the next type referred to, and further markers by the fallback. -/
def relatedName (nameOf : TypeExpr → String) (related marker : String)
    (references : List TypeExpr) (fallback : String) : String :=
  if marker.isEmpty then related
  else
    match Text.splitOn related marker with
    | [] => ""
    | first :: pieces => first ++ fillMarkers fallback pieces (references.map nameOf)

end GoStencil
