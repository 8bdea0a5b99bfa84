import GoStencil.TypeExpr.Printer

/-!
# Why a template is not implemented

The reasons for which a template type cannot be implemented by a candidate, with their wording.
-/

namespace GoStencil

/-- What a binding is for: a named template type, or every empty interface that the template
    writes without giving it a name. -/
inductive Binding where
  | name (ident : String)
  | universal
  deriving DecidableEq, Repr

/-- The binding in words. -/
def Binding.render : Binding → String
  | .name ident => ident
  | .universal => "interface\x7b\x7d"

/-- Why a template type is not implemented. -/
inductive Mismatch where
  /-- The two types are of different kinds. -/
  | shape (template candidate : TypeExpr)
  /-- A name that the template does not declare meets something else. -/
  | identifier (expected : String) (found : TypeExpr)
  /-- The two channels run in opposite directions. -/
  | direction (expected found : Direction)
  /-- The candidate struct has fewer fields. -/
  | insufficientFields (expected found : Nat)
  /-- The candidate struct lacks a field. -/
  | missingField (name : String)
  /-- The two parameter or result lists differ in length. -/
  | arity (expected found : Nat)
  /-- What is already bound would have to be bound to another type. -/
  | inconsistent (binding : Binding) (bound proposed : TypeExpr)
  /-- The template asks for methods. -/
  | unsupportedConstraint (interface : TypeExpr)
  /-- No type is left to implement a template type. -/
  | unsatisfied (name : String)
  /-- The template declares no type to implement. -/
  | noTemplateTypes
  /-- A candidate does not implement a template type, for the given reason. -/
  | rejected (candidate target : String) (cause : Mismatch)
  deriving DecidableEq, Repr

namespace Mismatch

/-- The reason in words. -/
def message : Mismatch → String
  | .shape template candidate =>
    "Cannot implement " ++ template.render ++ " with " ++ candidate.render ++ ": shapes differ"
  | .identifier expected found =>
    "Cannot implement identifier " ++ expected ++ " with " ++ found.render
  | .direction expected found =>
    "Channel directions do not match: expected " ++ expected.describe ++
      " or bidirectional, found " ++ found.describe
  | .insufficientFields expected found =>
    "Not enough fields to implement struct: template has " ++ toString expected ++
      ", candidate has " ++ toString found
  | .missingField name => "Missing field " ++ name
  | .arity expected found =>
    "Field lists do not match in length: expected " ++ toString expected ++ ", found " ++
      toString found
  | .inconsistent binding bound proposed =>
    binding.render ++ " is already bound to " ++ bound.render ++ ", cannot also bind it to " ++
      proposed.render
  | .unsupportedConstraint interface =>
    "Non-empty interface types are not supported in templates: " ++ interface.render
  | .unsatisfied name => "No remaining provider type implements " ++ name
  | .noTemplateTypes => "Template declares no types to specialize"
  | .rejected candidate target _ => "Cannot implement " ++ target ++ " with " ++ candidate

/-- The code under which the reason is reported. -/
def code : Mismatch → String
  | .shape .. => "goast::specialize::shape_mismatch"
  | .identifier .. => "goast::specialize::identifier_mismatch"
  | .direction .. => "goast::specialize::direction_mismatch"
  | .insufficientFields .. => "goast::specialize::insufficient_fields"
  | .missingField _ => "goast::specialize::missing_field"
  | .arity .. => "goast::specialize::field_list_arity"
  | .inconsistent .. => "goast::specialize::inconsistent_binding"
  | .unsupportedConstraint _ => "goast::specialize::unsupported_constraint"
  | .unsatisfied _ => "goast::specialize::unsatisfied_placeholder"
  | .noTemplateTypes => "goast::specialize::no_template_types"
  | .rejected .. => "goast::specialize::candidate_failed"

/-- What to do about it, where there is something to say. -/
def help? : Mismatch → Option String
  | .shape .. => some "The candidate must have the same kind of type as the template"
  | .identifier .. => some "Identifiers that are not template types must match exactly"
  | .insufficientFields .. =>
    some "A candidate struct needs at least every field the template declares"
  | .arity .. => some "Function parameters and results are matched by position"
  | .inconsistent .. =>
    some "Every occurrence of a template type must be implemented by the same type"
  | .unsupportedConstraint _ => some "Declare type variables as interface\x7b\x7d"
  | .noTemplateTypes =>
    some "A template needs at least one type declaration whose name has no marker"
  | .direction .. | .missingField _ | .unsatisfied _ | .rejected .. => none

/-- The reason behind any number of candidates. -/
def rootCause : Mismatch → Mismatch
  | .rejected _ _ cause => cause.rootCause
  | other => other

end Mismatch

end GoStencil
