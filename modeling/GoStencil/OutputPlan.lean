import GoStencil.Config
import GoStencil.Path
import GoStencil.SourceFile.Printer
import GoStencil.Specialization
import GoStencil.Text.Case
import GoStencil.Text.Search

/-!
# Output files

Each specialization is written to a file of its own, named after its candidate and the template in
lower case. A name that is taken gets a number before its extension: the position of the
specialization, or the next number that makes the name free.

* `outputFileName`: the name that a specialization would have.
* `freeIndex`: the number for a name that is taken.
* `planOutputs`: the files of a run.
-/

namespace GoStencil

/-- A file to be written. -/
structure OutputFile where
  path : String
  contents : String
  deriving DecidableEq, Repr

/-- The name of the file for a candidate and a template. -/
def outputFileName (namePrefix candidate template nameSuffix : String) : String :=
  Text.lowercase (namePrefix ++ candidate ++ "_" ++ template ++ nameSuffix ++ ".go")

/-- The name with a number before its extension. -/
def indexedName (name : String) (index : Nat) : String :=
  if Text.endsWith name ".go" then
    String.ofList (name.toList.take (name.toList.length - 3)) ++ "_" ++ toString index ++ ".go"
  else
    name ++ "_" ++ toString index

/-- The least number, from the given one on, that makes a name none of those taken. Of the numbers
    from there on fewer than `tries` are tried in vain. -/
def freeIndex (name : String) (taken : List String) : Nat → Nat → Nat
  | 0, index => index
  | tries + 1, index =>
    if taken.contains (indexedName name index) then freeIndex name taken tries (index + 1)
    else index

/-- The name for the specialization at a position when some names are taken. -/
def freeName (name : String) (taken : List String) (index : Nat) : String :=
  if taken.contains name then indexedName name (freeIndex name taken taken.length index)
  else name

/-- The names of specializations from some position on, when some names are taken. -/
def planNames (taken : List String) : Nat → List String → List String
  | _, [] => []
  | index, name :: names =>
    let free := freeName name taken index
    free :: planNames (free :: taken) (index + 1) names

@[simp] theorem length_planNames (taken : List String) (index : Nat) (names : List String) :
    (planNames taken index names).length = names.length := by
  induction names generalizing taken index with
  | nil => rfl
  | cons name names ih => simp [planNames, ih]

/-- The files of some specializations in the order of these. -/
def planOutputs (outputs : List Specialization) (templatePath directory : String)
    (settings : Settings) : List OutputFile :=
  let template := (Path.fileStem? templatePath).getD ""
  let names := outputs.map fun output =>
    outputFileName settings.namePrefix output.name template settings.nameSuffix
  (planNames [] 0 names).zipWith
    (fun name output => ⟨Path.join directory name, output.file.render⟩) outputs

end GoStencil
