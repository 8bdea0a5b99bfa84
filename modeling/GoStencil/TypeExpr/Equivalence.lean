import GoStencil.TypeExpr

/-!
# When two type expressions are the same type

Parentheses, tags, and the names of parameters and results do not matter; the names of struct
fields and interface members do. A grouped entry `a, b T` is two entries.
-/

namespace GoStencil

mutual

/-- Whether two expressions write the same type. -/
def TypeExpr.equivalent : TypeExpr → TypeExpr → Bool
  | .paren inner, other => inner.equivalent other
  | type, other =>
    match type, other.unparen with
    | .name a, .name b => a == b
    | .qualified p a, .qualified q b => p == q && a == b
    | .pointer a, .pointer b => a.equivalent b
    | .variadic a, .variadic b => a.equivalent b
    | .array m a, .array n b => m == n && a.equivalent b
    | .channel d a, .channel e b => d == e && a.equivalent b
    | .map k a, .map l b => k.equivalent l && a.equivalent b
    | .function ps rs, .function qs ss =>
      ps.positionallyEquivalent qs.entryTypes && rs.positionallyEquivalent ss.entryTypes
    | .struct fs, .struct gs => fs.nominallyEquivalent gs.namedEntries
    | .interface fs, .interface gs => fs.nominallyEquivalent gs.namedEntries
    | _, _ => false

/-- Whether the entries of a list have, one after the other, the given types. -/
def FieldList.positionallyEquivalent : FieldList → List TypeExpr → Bool
  | .nil, others => others.isEmpty
  | .cons names type _ rest, others =>
    let count := entryCount names
    let here := others.take count
    here.length == count && here.all (fun other => type.equivalent other) &&
      rest.positionallyEquivalent (others.drop count)

/-- Whether the entries of a list have, one after the other, the given names and types. -/
def FieldList.nominallyEquivalent : FieldList → List (Option String × TypeExpr) → Bool
  | .nil, others => others.isEmpty
  | .cons names type _ rest, others =>
    let count := entryCount names
    let here := others.take count
    here.map (·.1) == (if names.isEmpty then [none] else names.map some) &&
      here.all (fun other => type.equivalent other.2) &&
      rest.nominallyEquivalent (others.drop count)

end

end GoStencil
