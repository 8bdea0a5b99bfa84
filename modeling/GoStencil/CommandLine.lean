import GoStencil.Command

/-!
# The command line

The arguments of the program, level by level: the program itself, `write` and `print`, and below
these `write impl` and `print decls`. Each level has its options; `--verbose` and `--config` belong
to all. Options may be mixed with other arguments up to `--`.

* `Invocation.parse`: what some arguments ask for, or that they are used wrongly.
* `run`: the exit code and the output of the program.
-/

namespace GoStencil

/-! ## 1. Options -/

/-- How far the arguments have named a command. -/
inductive Level where
  | program
  | write
  | print
  | writeImpl
  | printDecls
  deriving DecidableEq, Repr

/-- The level that a command opens. -/
def Level.sub? : Level → String → Option Level
  | .program, "write" => some .write
  | .program, "print" => some .print
  | .write, "impl" => some .writeImpl
  | .print, "decls" => some .printDecls
  | _, _ => none

/-- Whether the level has commands below it. -/
def Level.hasCommands : Level → Bool
  | .program | .write | .print => true
  | .writeImpl | .printDecls => false

/-- How many other arguments the level takes. -/
def Level.arity : Level → Nat
  | .program | .write | .print => 0
  | .writeImpl => 2
  | .printDecls => 1

/-- An option. -/
inductive Opt where
  | verbose
  | config
  | help
  | version
  | namePrefix
  | nameSuffix
  | marker
  | outputDir
  | sequential
  | dryRun
  deriving DecidableEq, Repr

/-- What an option takes. -/
inductive OptValue where
  | nothing
  | text
  /-- A text that is not empty. -/
  | path
  deriving DecidableEq, Repr

/-- What the option takes. -/
def Opt.value : Opt → OptValue
  | .verbose | .help | .version | .sequential | .dryRun => .nothing
  | .namePrefix | .nameSuffix | .marker => .text
  | .config | .outputDir => .path

/-- Whether the option may be given several times. -/
def Opt.repeatable : Opt → Bool
  | .verbose => true
  | _ => false

/-- The option of a level with a long name. -/
def Level.long? : Level → String → Option Opt
  | _, "verbose" => some .verbose
  | _, "config" => some .config
  | _, "help" => some .help
  | .program, "version" => some .version
  | .writeImpl, "prefix" => some .namePrefix
  | .writeImpl, "suffix" => some .nameSuffix
  | .writeImpl, "marker" => some .marker
  | .writeImpl, "output-dir" => some .outputDir
  | .writeImpl, "sequential" => some .sequential
  | .writeImpl, "dry-run" => some .dryRun
  | _, _ => none

/-- The option of a level with a letter. -/
def Level.short? : Level → Char → Option Opt
  | _, 'v' => some .verbose
  | _, 'h' => some .help
  | .program, 'V' => some .version
  | _, _ => none

/-! ## 2. What the arguments ask for -/

/-- What the arguments ask for. -/
inductive Invocation where
  | write (request : WriteRequest) (config : Option String)
  | print (path : String)
  | version
  | help
  deriving DecidableEq, Repr

/-- What the arguments of one level have given so far. -/
structure Given where
  level : Level
  /-- The options of this level, with their values. -/
  options : List (Opt × String)
  /-- The configuration that the deepest level so far names. -/
  config : Option String
  /-- The other arguments of this level, the last one first. -/
  operands : List String

namespace Given

/-- Nothing is given at a level below one that named this configuration. -/
def none (level : Level) (config : Option String) : Given :=
  ⟨level, [], config, []⟩

/-- The value of an option, when it is given. -/
def get? (given : Given) (opt : Opt) : Option String :=
  given.options.lookup opt

/-- Whether an option is given. -/
def has (given : Given) (opt : Opt) : Bool :=
  (given.get? opt).isSome

/-- One more option with its value, unless it may not be repeated or the value may not be
    empty. -/
def add (given : Given) (opt : Opt) (value : String) : Option Given :=
  if given.has opt && !opt.repeatable then Option.none
  else if opt.value = .path && value.isEmpty then Option.none
  else
    some { given with
      options := (opt, value) :: given.options
      config := if opt = .config then some value else given.config }

/-- One more argument that is no option, unless there are too many or it is empty. -/
def addOperand (given : Given) (operand : String) : Option Given :=
  if given.operands.length < given.level.arity && !operand.isEmpty then
    some { given with operands := operand :: given.operands }
  else Option.none

/-- What is asked for when the arguments end here. -/
def finish (given : Given) : Option Invocation :=
  match given.level, given.operands.reverse with
  | .program, _ => some .help
  | .writeImpl, template :: rest =>
    let overrides : Overrides :=
      ⟨given.get? .namePrefix, given.get? .nameSuffix, given.get? .marker,
        given.get? .outputDir, given.has .sequential⟩
    some (.write ⟨template, rest.head?, overrides, given.has .dryRun⟩ given.config)
  | .printDecls, path :: _ => some (.print path)
  | _, _ => Option.none

end Given

/-! ## 3. Reading the arguments -/

/-- What one option asks for by itself. -/
def Opt.immediate? : Opt → Option Invocation
  | .help => some .help
  | .version => some .version
  | _ => none

/-- The letters of an argument with one hyphen, each an option without a value. The reading ends
    at an option that asks for something by itself. -/
def readLetters (given : Given) : List Char → Option (Given ⊕ Invocation)
  | [] => some (.inl given)
  | letter :: letters => do
    let opt ← given.level.short? letter
    match opt.immediate? with
    | some invocation => return .inr invocation
    | none => readLetters (← given.add opt "") letters

/-- Whether the names after `help` lead from a level to another. -/
def leadsToLevel : Level → List String → Bool
  | _, [] => true
  | level, name :: names =>
    match level.sub? name with
    | some sub => leadsToLevel sub names
    | none => name = "help" && level.hasCommands && names.isEmpty

/-- How an argument looks. -/
inductive ArgumentForm where
  /-- `--`, after which no argument is an option. -/
  | terminator
  /-- A long option, perhaps with a value after an equals sign. -/
  | long (name : String) (value : Option String)
  /-- Options with one letter each. -/
  | letters (letters : List Char)
  /-- Anything else. A single hyphen is such an argument. -/
  | plain

/-- How an argument looks. -/
def ArgumentForm.of (argument : String) : ArgumentForm :=
  match argument.toList with
  | ['-', '-'] => .terminator
  | '-' :: '-' :: cs =>
    let (name, rest) := cs.span (· != '=')
    .long (String.ofList name) (rest.tail?.map String.ofList)
  | '-' :: c :: cs => .letters (c :: cs)
  | _ => .plain

/-- Reads arguments none of which is an option. -/
def readOperands (given : Given) : List String → Option Invocation
  | [] => given.finish
  | argument :: rest => do readOperands (← given.addOperand argument) rest

/-- Reads the arguments from some place on; `none` says that they are used wrongly. -/
def readArguments (given : Given) : List String → Option Invocation
  | [] => given.finish
  | argument :: rest =>
    match ArgumentForm.of argument with
    | .terminator => readOperands given rest
    | .letters letters => do
      match ← readLetters given letters with
      | .inl given => readArguments given rest
      | .inr invocation => return invocation
    | .long name value? => do
      let opt ← given.level.long? name
      match opt.value, value?, rest with
      | .nothing, none, rest =>
        match opt.immediate? with
        | some invocation => return invocation
        | none => readArguments (← given.add opt "") rest
      | .nothing, some _, _ => none
      | _, some value, rest => readArguments (← given.add opt value) rest
      | _, none, value :: rest =>
        match ArgumentForm.of value with
        | .plain => readArguments (← given.add opt value) rest
        | _ => none
      | _, none, [] => none
    | .plain =>
      match given.level.sub? argument with
      | some level => readArguments (.none level given.config) rest
      | none =>
        if argument = "help" && given.level.hasCommands then
          if leadsToLevel given.level rest then some .help else none
        else do readArguments (← given.addOperand argument) rest

/-- What some arguments ask for; `none` says that they are used wrongly. -/
def Invocation.parse (arguments : List String) : Option Invocation :=
  readArguments (.none .program none) arguments

/-! ## 4. Running -/

/-- How a run of the program ends. -/
structure Exit where
  code : Nat
  /-- What it prints. -/
  output : String
  /-- The failure that it reports, if it is one of a command. -/
  failure : Option CommandError

/-- What the program prints about itself. -/
def versionText : String :=
  "goast 0.1.0\n"

/-- What the program prints about its use. -/
def helpText : String :=
  "Generates Go code by specializing generic templates, whose type variables are declared as " ++
  "interface\x7b\x7d, against the concrete types of a provider file.\n\n" ++
  "Usage: goast [OPTIONS] [COMMAND]\n\n" ++
  "Commands:\n" ++
  "  write  Generate code with AST transformations\n" ++
  "  print  Print representations of a Go file's AST\n" ++
  "  help   Print this message or the help of the given subcommand(s)\n\n" ++
  "Options:\n" ++
  "  -v, --verbose...     More log output: -v info, -vv debug, -vvv trace\n" ++
  "      --config <PATH>  Config file to use instead of ./goast.toml\n" ++
  "  -h, --help           Print help\n" ++
  "  -V, --version        Print version\n"

/-- A file in the output of a run: its contents when it is only planned, else its path. -/
def OutputFile.announce (dryRun : Bool) (file : OutputFile) : String :=
  if dryRun then "// " ++ file.path ++ "\n" ++ file.contents ++ "\n"
  else "✅ " ++ file.path ++ "\n"

variable {m : Type → Type} [Monad m] (files : Files m)

/-- The output of what the arguments ask for. -/
def perform (environment : Option String) : Invocation → ExceptT CommandError m String
  | .write request named => do
    let config ← loadConfig files named "."
    let outputs ← writeImpl files request environment config
    return String.join (outputs.map (OutputFile.announce request.dryRun))
  | .print path => do
    let lines ← printDecls files path
    return String.join (lines.map (· ++ "\n"))
  | .version => return versionText
  | .help => return helpText

/-- Runs the program on its arguments, where the environment may name a provider file. -/
def run (environment : Option String) (arguments : List String) : m Exit := do
  match Invocation.parse arguments with
  | none => return ⟨2, "", none⟩
  | some invocation =>
    match ← (perform files environment invocation).run with
    | .ok output => return ⟨0, output, none⟩
    | .error failure => return ⟨1, "", some failure⟩

end GoStencil
