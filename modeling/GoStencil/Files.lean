/-!
# Access to files

The operations on files that commands need, in any monad. What they do is left to the monad, so a
command can run on the files of a system as well as on a value that stands for them.
-/

namespace GoStencil

/-- Operations on files. -/
structure Files (m : Type → Type) where
  /-- The contents of a file that can be read and holds text. -/
  readText? : String → m (Option String)
  /-- Whether a path leads to a file. -/
  isFile : String → m Bool
  /-- Makes a directory and those above it, and says whether they are there now. -/
  makeDirs : String → m Bool
  /-- Writes a text into a file, and says whether it could. -/
  write : String → String → m Bool

end GoStencil
