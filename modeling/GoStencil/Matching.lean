import GoStencil.Scope
import GoStencil.Substitution

/-!
# Matching template types with candidates

A template type is matched with a candidate from a provider, and every match extends the
substitution that the whole template shares. The shape of the template type decides:

* a name that is bound already takes the same type again; a type variable takes the candidate; any
  other declared name is bound to the candidate and then matched by its definition; an undeclared
  name matches itself only;
* the empty interface takes one type for the whole template;
* every other form is matched part by part, where the candidate is looked at through parentheses
  and through the names of the provider.

`TypeExpr.matchWith` is the part-by-part matching for a given treatment of names, and
`Matcher.matchName` that treatment: a name is bound before its definition is matched, so each
declaration of the template is entered at most once, and their number bounds the depth.
-/

namespace GoStencil

/-- A substitution, or the reason why there is none. -/
abbrev Matched := Except Mismatch Substitution

/-- How a name of the template is matched. -/
abbrev NameMatcher := String → TypeExpr → Substitution → Matched

section Parts

variable (matchName : NameMatcher) (resolve : TypeExpr → TypeExpr)

mutual

/-- Matches a template type with a candidate. `resolve` is how candidates are looked through. -/
def TypeExpr.matchWith : TypeExpr → TypeExpr → Substitution → Matched
  | .name ident, candidate, subst => matchName ident candidate subst
  | .paren inner, candidate, subst => inner.matchWith candidate subst
  | .interface .nil, candidate, subst => subst.bind .universal candidate
  | .variadic elem, .variadic candidate, subst => elem.matchWith candidate subst
  | .variadic elem, candidate, subst => elem.matchWith candidate subst
  | template, candidate, subst =>
    match template, resolve candidate with
    | .qualified package ident, .qualified foundPackage found => do
      let subst ← matchName package (.name foundPackage) subst
      if ident = found then return subst
      else throw (.identifier ident (.name found))
    | .pointer elem, .pointer found => elem.matchWith found subst
    | .array length elem, .array foundLength found =>
      if length = foundLength then elem.matchWith found subst
      else .error (.shape (.array length elem) (.array foundLength found))
    | .channel direction value, .channel foundDirection found =>
      if direction ≠ .both ∧ foundDirection ≠ .both ∧ direction ≠ foundDirection then
        .error (.direction direction foundDirection)
      else value.matchWith found subst
    | .function params results, .function foundParams foundResults => do
      let subst ←
        if params.numFields = foundParams.numFields then
          params.matchEntries foundParams.entryTypes subst
        else throw (.arity params.numFields foundParams.numFields)
      if results.numFields = foundResults.numFields then
        results.matchEntries foundResults.entryTypes subst
      else throw (.arity results.numFields foundResults.numFields)
    | .interface members, _ => .error (.unsupportedConstraint (.interface members))
    | .map key value, .map foundKey found => do
      let subst ← key.matchWith foundKey subst
      value.matchWith found subst
    | .struct fields, .struct found =>
      if found.numFields < fields.numFields then
        .error (.insufficientFields fields.numFields found.numFields)
      else fields.matchFields found subst
    | template, candidate => .error (.shape template candidate)

/-- Matches the entries of a list, one after the other, with the given types. -/
def FieldList.matchEntries : FieldList → List TypeExpr → Substitution → Matched
  | .nil, _, subst => .ok subst
  | .cons names type _ rest, candidates, subst => do
    let subst ← (candidates.take (entryCount names)).foldlM
      (fun subst candidate => type.matchWith candidate subst) subst
    rest.matchEntries (candidates.drop (entryCount names)) subst

/-- Matches each field of a struct with the field of that name in the candidate. -/
def FieldList.matchFields : FieldList → FieldList → Substitution → Matched
  | .nil, _, subst => .ok subst
  | .cons names type _ rest, candidate, subst => do
    let subst ← (effectiveNames names type).foldlM
      (fun subst name =>
        match candidate.find? name with
        | some found => type.matchWith found.type subst
        | none => .error (.missingField name)) subst
    rest.matchFields candidate subst

end

end Parts

/-- What matching looks names up in: the template, and the provider if there is one. -/
structure Matcher where
  template : Scope
  provider : Option Scope

namespace Matcher

/-- The candidate as structural template types see it. -/
def resolve (matcher : Matcher) (candidate : TypeExpr) : TypeExpr :=
  match matcher.provider with
  | some provider => provider.resolve candidate
  | none => candidate.unparen

/-- Matches a name of the template with a candidate. The number bounds how many definitions are
    entered; none is left to enter when every declared name is bound. -/
def matchName (matcher : Matcher) : Nat → NameMatcher
  | depth, ident, candidate, subst =>
    if subst.bindsName ident then subst.bind (.name ident) candidate
    else
      match matcher.template.lookup ident with
      | none =>
        if candidate = .name ident then .ok subst else .error (.identifier ident candidate)
      | some decl => do
        let subst ← subst.bind (.name ident) candidate
        if decl.isPlaceholder then return subst
        match depth with
        | 0 => return subst
        | depth + 1 =>
          decl.type.matchWith (matchName matcher depth) matcher.resolve candidate subst

/-- Matches a template type with a candidate, which extends the substitution. -/
def unify (matcher : Matcher) (template candidate : TypeExpr) (subst : Substitution) : Matched :=
  template.matchWith (matcher.matchName matcher.template.types.length) matcher.resolve candidate
    subst

/-- Implements a declaration of the template by a declaration of the provider. The name is bound
    before the definitions are matched, so a definition may mention it. -/
def unifyDecl (matcher : Matcher) (target candidate : TypeDecl) (subst : Substitution) :
    Matched := do
  let subst ← subst.bind (.name target.name) (.name candidate.name)
  if target.isPlaceholder then return subst
  else matcher.unify target.type candidate.type subst

end Matcher

end GoStencil
