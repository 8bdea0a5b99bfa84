import GoStencil.Grammar.Rule
import GoStencil.SourceFile

/-!
# Why a text is not read

* `ParseError.rejected`: the grammar does not accept the text. Where and why is worked out
  separately, from the text itself.
* `ParseError.invalidImportPath`: the grammar accepts it, but an import path is empty or has a
  blank in it.
* `ParseError.malformedTree`: a tree that the grammar never makes.
-/

namespace GoStencil

/-- Why a text is not read. -/
inductive ParseError where
  /-- The grammar does not accept the text. -/
  | rejected
  /-- An import path, as written with its quotes, names no package. -/
  | invalidImportPath (quoted : String) (span : Span)
  /-- A node has other children than its rule gives it. -/
  | malformedTree (rule : Grammar.Rule)
  deriving DecidableEq, Repr

namespace ParseError

/-- The error in words. -/
def message : ParseError → String
  | .rejected => "Parse error"
  | .invalidImportPath quoted _ => "Invalid import path " ++ quoted
  | .malformedTree _ => "Unexpected grammar rule"

/-- The code under which the error is reported. -/
def code : ParseError → String
  | .rejected => "goast::parse::pest_error"
  | .invalidImportPath .. => "goast::parse::invalid_import_path"
  | .malformedTree _ => "goast::parse::unexpected_rule"

/-- What to do about the error. -/
def help : ParseError → String
  | .rejected => "Check the syntax near the highlighted location"
  | .invalidImportPath .. => "Import paths must be non-empty quoted strings"
  | .malformedTree rule => "Expected rule: " ++ rule.label

end ParseError

end GoStencil
