import GoStencil.Files
import GoStencil.OutputPlan
import GoStencil.ParseError
import GoStencil.SourceFile.Parser
import GoStencil.SourceFile.Summary

/-!
# Commands

What the program does, given access to files: write the specializations of a template, or print a
line for each declaration of a file. What fails first is reported, and nothing after it is done.

* `loadConfig`, `loadSource`: what is read.
* `writeImpl`, `printDecls`: the commands.
-/

namespace GoStencil

/-- Why a command fails. -/
inductive CommandError where
  | read (path : String)
  | write (path : String)
  | parse (path : String) (cause : ParseError)
  | missingProvider
  | configRead (path : String)
  | configInvalid (path : String)
  | specialize (template provider : String) (causes : List Mismatch)
  deriving DecidableEq, Repr

namespace CommandError

/-- The failure in words. -/
def message : CommandError → String
  | .read path => "Failed to read " ++ path
  | .write path => "Failed to write " ++ path
  | .parse path _ => "Failed to parse " ++ path
  | .missingProvider => "No provider file given"
  | .configRead path => "Failed to read config file " ++ path
  | .configInvalid path => "Invalid config file " ++ path
  | .specialize template provider _ =>
    "No type in " ++ provider ++ " implements template " ++ template

/-- The code under which the failure is reported. -/
def code : CommandError → String
  | .read _ => "goast::io::read"
  | .write _ => "goast::io::write"
  | .parse .. => "goast::parse::file"
  | .missingProvider => "goast::cli::missing_provider"
  | .configRead _ => "goast::config::read"
  | .configInvalid _ => "goast::config::invalid"
  | .specialize .. => "goast::specialize::failed"

/-- What to do about it, where there is something to say. -/
def help? : CommandError → Option String
  | .missingProvider =>
    some ("Pass the provider file as the second argument, " ++
      "or run from a go:generate line so $GOFILE is set")
  | .configInvalid _ =>
    some ("Known sections are [output] (prefix, suffix, directory) " ++
      "and [specialize] (marker, parallel)")
  | .specialize .. =>
    some "Each related error below explains why one provider type was rejected"
  | .read _ | .write _ | .parse .. | .configRead _ => none

end CommandError

/-- What a specialization is to be written from. -/
structure WriteRequest where
  template : String
  provider : Option String
  overrides : Overrides
  /-- Only plan the files. -/
  dryRun : Bool
  deriving DecidableEq, Repr

/-- The provider file: the argument, or else what the environment names, without blanks at its
    ends. -/
def providerPath (argument environment : Option String) : Option String :=
  argument.or ((environment.map Text.trim).filter (!·.isEmpty))

/-- The directory of a provider file. -/
def providerDirectory (provider : String) : String :=
  match Path.parent? provider with
  | some parent => if parent.isEmpty then "." else parent
  | none => "."

/-- The configuration that a text writes; the path is that of its file. -/
def parseConfig (text path : String) : Except CommandError Config :=
  match Config.parse text with
  | some config => .ok config
  | none => .error (.configInvalid path)

variable {m : Type → Type} [Monad m] (files : Files m)

/-- The configuration in a file. -/
def readConfig (path : String) : ExceptT CommandError m Config := do
  match ← files.readText? path with
  | none => throw (.configRead path)
  | some text =>
    match parseConfig text path with
    | .ok config => return config
    | .error failure => throw failure

/-- The configuration in the named file, or else in the usual file of a directory if it exists. -/
def loadConfig (named : Option String) (directory : String) : ExceptT CommandError m Config := do
  match named with
  | some path => readConfig files path
  | none =>
    let path := Path.join directory configFileName
    if ← files.isFile path then readConfig files path else return .default

/-- The source file at a path. -/
def loadSource (path : String) : ExceptT CommandError m SourceFile := do
  match ← files.readText? path with
  | none => throw (.read path)
  | some text =>
    match SourceFile.parse text (some path) with
    | .ok file => return file
    | .error cause => throw (.parse path cause)

/-- The files of a run: those of all specializations of the template by types of the provider. -/
def planRun (template provider : String) (settings : Settings)
    (templateFile providerFile : SourceFile) : Except CommandError (List OutputFile) :=
  let options : Options := ⟨settings.marker, TypeExpr.niceName⟩
  let result := specialize options templateFile providerFile
  if result.isOk then
    let directory := settings.directory.getD (providerDirectory provider)
    .ok (planOutputs result.outputs template directory settings)
  else
    .error (.specialize template provider result.errors)

/-- Writes files in order, each after the directory that is to hold it. -/
def writeOutputs : List OutputFile → ExceptT CommandError m Unit
  | [] => return
  | file :: rest => do
    if let some parent := Path.parent? file.path then
      unless ← files.makeDirs parent do throw (.write parent)
    unless ← files.write file.path file.contents do throw (.write file.path)
    writeOutputs rest

/-- Specializes a template by a provider, and writes the files unless they are only planned. -/
def writeImpl (request : WriteRequest) (environment : Option String) (config : Config) :
    ExceptT CommandError m (List OutputFile) := do
  match providerPath request.provider environment with
  | none => throw .missingProvider
  | some provider =>
    let templateFile ← loadSource files request.template
    let providerFile ← loadSource files provider
    let settings := config.resolve request.overrides
    match planRun request.template provider settings templateFile providerFile with
    | .error failure => throw failure
    | .ok outputs =>
      unless request.dryRun do writeOutputs files outputs
      return outputs

/-- A line for each declaration of the file at a path. -/
def printDecls (path : String) : ExceptT CommandError m (List String) := do
  return (← loadSource files path).summary

end GoStencil
