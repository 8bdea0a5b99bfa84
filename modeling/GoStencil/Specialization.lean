import GoStencil.Complexity
import GoStencil.Matching
import GoStencil.Naming
import GoStencil.Instantiation

/-!
# Specializing a template

A template declares its type variables as empty interfaces and uses them in ordinary code; a
provider declares concrete types. Each provider type is tried as the implementation of the most
structured template type, the primary target. A trial that succeeds goes on to implement the other
targets by provider types it has not used yet, names the related types (those with a marker in
their names) and instantiates a copy of the template.

* `Template.targets`, `Template.related`: the template types, the most structured target first.
* `Trial.bindAll`, `Trial.emit`: the two halves of a trial.
* `specialize`: all trials. Failures are reported only when no trial succeeds.
-/

namespace GoStencil

/-! ## 1. Order -/

/-- Puts a weighed declaration before the first that does not weigh more. -/
def insertByWeight (item : Nat × TypeDecl) : List (Nat × TypeDecl) → List (Nat × TypeDecl)
  | [] => [item]
  | first :: rest =>
    if item.1 < first.1 then first :: insertByWeight item rest else item :: first :: rest

/-- Weighed declarations by decreasing weight; those of equal weight keep their order. -/
def sortByWeight : List (Nat × TypeDecl) → List (Nat × TypeDecl)
  | [] => []
  | item :: rest => insertByWeight item (sortByWeight rest)

/-- Declarations of a scope, the most structured first. -/
def Scope.mostStructuredFirst (scope : Scope) (decls : List TypeDecl) : List TypeDecl :=
  (sortByWeight (decls.map fun decl => (scope.declComplexity decl, decl))).map Prod.snd

/-! ## 2. What references a type makes -/

mutual

/-- What the names in a type are bound to, from left to right. -/
def TypeExpr.references (subst : Substitution) : TypeExpr → List TypeExpr
  | .name ident => (subst.getName? ident).toList
  | .qualified _ _ => []
  | .pointer elem => elem.references subst
  | .paren inner => inner.references subst
  | .variadic elem => elem.references subst
  | .array _ elem => elem.references subst
  | .channel _ value => value.references subst
  | .map key value => key.references subst ++ value.references subst
  | .function params results => params.references subst ++ results.references subst
  | .struct fields => fields.references subst
  | .interface members => members.references subst

/-- What the names in the types of a list are bound to. A type counts once for an entry, however
    many names the entry declares. -/
def FieldList.references (subst : Substitution) : FieldList → List TypeExpr
  | .nil => []
  | .cons _ type _ rest => type.references subst ++ rest.references subst

end

mutual

/-- The packages that a type mentions, from left to right, with repetition. -/
def TypeExpr.qualifiers : TypeExpr → List String
  | .name _ => []
  | .qualified package _ => [package]
  | .pointer elem => elem.qualifiers
  | .paren inner => inner.qualifiers
  | .variadic elem => elem.qualifiers
  | .array _ elem => elem.qualifiers
  | .channel _ value => value.qualifiers
  | .map key value => key.qualifiers ++ value.qualifiers
  | .function params results => params.qualifiers ++ results.qualifiers
  | .struct fields => fields.qualifiers
  | .interface members => members.qualifiers

/-- The packages that the types of a list mention. -/
def FieldList.qualifiers : FieldList → List String
  | .nil => []
  | .cons _ type _ rest => type.qualifiers ++ rest.qualifiers

end

/-! ## 3. Trials -/

/-- What a run of trials may choose. -/
structure Options where
  /-- The text that marks the names of related types. -/
  marker : String
  /-- Pieces of names for types. -/
  nameOf : TypeExpr → String

/-- The usual choices. -/
def Options.default : Options :=
  ⟨"_", TypeExpr.niceName⟩

/-- Whether a template type is named after others instead of being implemented. -/
def isRelated (marker name : String) : Bool :=
  !marker.isEmpty && Text.contains name marker

/-- A successful trial. -/
structure Specialization where
  /-- The provider type that implements the primary target. -/
  name : String
  file : SourceFile
  substitution : Substitution

/-- What all trials of a run share. -/
structure Trial where
  template : SourceFile
  provider : Scope
  options : Options
  /-- The template types to implement, the most structured first. -/
  targets : List TypeDecl
  /-- The template types to name, in order. -/
  related : List TypeDecl
  /-- The provider types, the most structured first. -/
  candidates : List TypeDecl

namespace Trial

/-- The trials of a template and a provider. -/
def of (options : Options) (template provider : SourceFile) : Trial :=
  let isTarget (decl : TypeDecl) := !isRelated options.marker decl.name
  { template
    provider := provider.scope
    options
    targets := template.scope.mostStructuredFirst (template.scope.types.filter isTarget)
    related := template.scope.types.filter fun decl => !isTarget decl
    candidates := provider.scope.mostStructuredFirst provider.scope.types }

/-- How template types are matched with provider types. -/
def matcher (trial : Trial) : Matcher :=
  ⟨trial.template.scope, some trial.provider⟩

/-- The first candidate that is not consumed and implements a target, with the substitution it
    leads to. -/
def firstMatch (trial : Trial) (target : TypeDecl) (consumed : List String)
    (subst : Substitution) : Option (String × Substitution) :=
  trial.candidates.findSome? fun candidate =>
    if consumed.contains candidate.name then none
    else
      match trial.matcher.unifyDecl target candidate subst with
      | .ok grown => some (candidate.name, grown)
      | .error _ => none

/-- Implements each of the targets that is not bound yet by the first candidate left. -/
def bindRest (trial : Trial) : List TypeDecl → List String → Substitution → Matched
  | [], _, subst => .ok subst
  | target :: rest, consumed, subst =>
    if subst.bindsName target.name then bindRest trial rest consumed subst
    else
      match trial.firstMatch target consumed subst with
      | some (name, grown) => bindRest trial rest (name :: consumed) grown
      | none => .error (.unsatisfied target.name)

/-- Implements the primary target by the candidate, and the other targets by other types. -/
def bindAll (trial : Trial) (primary : TypeDecl) (others : List TypeDecl)
    (candidate : TypeDecl) : Matched := do
  let subst ← trial.matcher.unifyDecl primary candidate .empty
  trial.bindRest others [candidate.name] subst

/-- Binds each related type to its name. -/
def bindRelated (trial : Trial) (candidate : TypeDecl) :
    List TypeDecl → Substitution → Matched
  | [], subst => .ok subst
  | decl :: rest, subst =>
    let name := relatedName trial.options.nameOf decl.name trial.options.marker
      (decl.type.references subst) (Text.capitalize candidate.name)
    match subst.bind (.name decl.name) (.name name) with
    | .ok grown => bindRelated trial candidate rest grown
    | .error cause => .error (.rejected candidate.name decl.name cause)

/-- Whether a declaration is left out of what a trial writes: the targets are implemented
    elsewhere. -/
def isScaffolding (trial : Trial) : Decl → Bool
  | .type decl => trial.targets.any (·.name == decl.name)
  | _ => false

/-- The imports of a file with those of the provider added that the given qualifiers refer to and
    that have no import yet. -/
def carryImports (provider : Scope) : List String → List ImportSpec → List ImportSpec
  | [], imports => imports
  | qualifier :: rest, imports =>
    if imports.any (·.localName == qualifier) then carryImports provider rest imports
    else
      match provider.qualifierOf qualifier with
      | some spec => carryImports provider rest (imports ++ [{ spec with span := ⟨0, 0⟩ }])
      | none => carryImports provider rest imports

/-- The specialized file for a finished substitution: the template without its targets, with
    everything bound replaced, in the package of the provider. -/
def file (trial : Trial) (subst : Substitution) : SourceFile :=
  let kept := { trial.template with
    decls := trial.template.decls.filter fun decl => !trial.isScaffolding decl }
  let concrete := kept.instantiate subst
  { concrete with
    package := trial.provider.package
    imports := carryImports trial.provider (subst.values.flatMap TypeExpr.qualifiers)
      concrete.imports }

/-- Names the related types and writes the specialized file. -/
def emit (trial : Trial) (candidate : TypeDecl) (subst : Substitution) :
    Except Mismatch Specialization := do
  let subst ← trial.bindRelated candidate trial.related subst
  return ⟨candidate.name, trial.file subst, subst⟩

/-- Tries a candidate as the implementation of the primary target. -/
def run (trial : Trial) (primary : TypeDecl) (others : List TypeDecl) (candidate : TypeDecl) :
    Except Mismatch Specialization :=
  match trial.bindAll primary others candidate with
  | .ok subst => trial.emit candidate subst
  | .error cause => .error (.rejected candidate.name primary.name cause)

end Trial

/-! ## 4. Runs -/

/-- The specializations of a template, or the reasons why there are none. -/
structure Specialized where
  outputs : List Specialization
  errors : List Mismatch

namespace Specialized

/-- The successes of some trials, or their failures when there are no successes. -/
def ofTrials (results : List (Except Mismatch Specialization)) : Specialized :=
  let outputs := results.filterMap fun
    | .ok output => some output
    | .error _ => none
  let errors := results.filterMap fun
    | .ok _ => none
    | .error cause => some cause
  ⟨outputs, if outputs.isEmpty then errors else []⟩

/-- Whether some trial succeeded. -/
def isOk (result : Specialized) : Bool :=
  !result.outputs.isEmpty

end Specialized

/-- Tries every provider type as the implementation of the template's primary target. -/
def specialize (options : Options) (template provider : SourceFile) : Specialized :=
  let trial := Trial.of options template provider
  match trial.targets with
  | [] => ⟨[], [.noTemplateTypes]⟩
  | primary :: others => Specialized.ofTrials (trial.candidates.map (trial.run primary others))

end GoStencil
