import GoStencil.CommandLine

/-!
# The program

The command line on the files of the system. Failures are reported on the error output.
-/

namespace GoStencil

/-- Whether an action succeeds. -/
def succeeds (action : IO Unit) : IO Bool := do
  try
    action
    return true
  catch _ => return false

/-- The files of the system. A file that may not be read is still a file. -/
def systemFiles : Files IO where
  readText? path := do
    try
      return String.fromUTF8? (← IO.FS.readBinFile path)
    catch _ => return none
  isFile path := do
    try
      discard <| IO.FS.readBinFile path
      return true
    catch
      | .permissionDenied .. => return true
      | _ => return false
  makeDirs path := if path.isEmpty then return true else succeeds (IO.FS.createDirAll path)
  write path text := succeeds (IO.FS.writeFile path text)

/-- The lines that report a failure. -/
def CommandError.report (failure : CommandError) : List String :=
  let causes :=
    match failure with
    | .parse _ cause => [cause.message]
    | .specialize _ _ causes =>
      causes.map fun cause => cause.message ++ ": " ++ cause.rootCause.message
    | _ => []
  [failure.code, failure.message] ++ causes ++ (failure.help?.map ("help: " ++ ·)).toList

end GoStencil

open GoStencil in
def main (arguments : List String) : IO UInt32 := do
  let exit ← run systemFiles (← IO.getEnv "GOFILE") arguments
  IO.print exit.output
  match exit.failure with
  | some failure => failure.report.forM IO.eprintln
  | none => if exit.code = 2 then IO.eprintln helpText
  return exit.code.toUInt32
