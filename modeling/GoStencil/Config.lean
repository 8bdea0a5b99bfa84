import GoStencil.Toml.Document

/-!
# Configuration

What a configuration file may set, and how the options of the command line override it.

A file has the sections `output` (`prefix`, `suffix`, `directory`) and `specialize` (`marker`,
`parallel`), and nothing else. A section may also be written as the list of its values in this
order.
-/

namespace GoStencil

/-- The file that is read when no other is named. -/
def configFileName : String :=
  "goast.toml"

/-- Where and under which names specializations are written. -/
structure OutputConfig where
  /-- Stands before each file name. -/
  namePrefix : String
  /-- Stands after each file name, before its extension. -/
  nameSuffix : String
  /-- The directory of the files; that of the provider if there is none. -/
  directory : Option String
  deriving DecidableEq, Repr

/-- How templates are specialized. -/
structure SpecializeConfig where
  /-- The text that marks the names of related types. -/
  marker : String
  /-- Whether trials may run at the same time. They do not see each other, so this changes no
      result. -/
  parallel : Bool
  deriving DecidableEq, Repr

/-- The contents of a configuration file. -/
structure Config where
  output : OutputConfig
  specialize : SpecializeConfig
  deriving DecidableEq, Repr

/-- The configuration of an empty file. -/
def Config.default : Config :=
  ⟨⟨"", "", none⟩, ⟨"_", true⟩⟩

/-! ## 1. Reading a file -/

namespace Config

/-- A text value. -/
def textOf : Toml.Value → Option String
  | .string text => some text
  | _ => none

/-- A truth value. -/
def flagOf : Toml.Value → Option Bool
  | .boolean value => some value
  | _ => none

/-- The section with one more of its keys set. -/
def setOutput (config : OutputConfig) (key : String) (value : Toml.Value) :
    Option OutputConfig := do
  let text ← textOf value
  if key = "prefix" then return { config with namePrefix := text }
  else if key = "suffix" then return { config with nameSuffix := text }
  else if key = "directory" then return { config with directory := some text }
  else none

/-- The section with one more of its keys set. -/
def setSpecialize (config : SpecializeConfig) (key : String) (value : Toml.Value) :
    Option SpecializeConfig := do
  if key = "marker" then return { config with marker := ← textOf value }
  else if key = "parallel" then return { config with parallel := ← flagOf value }
  else none

/-- The keys and values of a section: those of a table, or the items of a list under the keys of
    the section in order. -/
def sectionEntries (keys : List String) : Toml.Value → Option Toml.Table
  | .inline entries => some entries
  | .table _ entries => some entries
  | .array items => some (keys.zip items)
  | _ => none

/-- The configuration with one more of its sections set. -/
def setSection (config : Config) (key : String) (value : Toml.Value) : Option Config := do
  if key = "output" then
    let entries ← sectionEntries ["prefix", "suffix", "directory"] value
    let output ← entries.foldlM (fun output entry => setOutput output entry.1 entry.2)
      config.output
    return { config with output }
  else if key = "specialize" then
    let entries ← sectionEntries ["marker", "parallel"] value
    let specialize ← entries.foldlM
      (fun specialize entry => setSpecialize specialize entry.1 entry.2) config.specialize
    return { config with specialize }
  else none

/-- The configuration that a text writes, when it is one. -/
def parse (text : String) : Option Config := do
  (← Toml.readDocument text).foldlM (fun config entry => setSection config entry.1 entry.2)
    .default

end Config

/-! ## 2. Options of the command line -/

/-- What the command line sets; `none` where an option is not given. -/
structure Overrides where
  namePrefix : Option String
  nameSuffix : Option String
  marker : Option String
  directory : Option String
  sequential : Bool
  deriving DecidableEq, Repr

/-- What holds for a run. -/
structure Settings where
  namePrefix : String
  nameSuffix : String
  directory : Option String
  marker : String
  parallel : Bool
  deriving DecidableEq, Repr

/-- The settings of a configuration under the options of the command line. -/
def Config.resolve (config : Config) (overrides : Overrides) : Settings where
  namePrefix := overrides.namePrefix.getD config.output.namePrefix
  nameSuffix := overrides.nameSuffix.getD config.output.nameSuffix
  directory := overrides.directory.or config.output.directory
  marker := overrides.marker.getD config.specialize.marker
  parallel := config.specialize.parallel && !overrides.sequential

end GoStencil
