/-!
# Paths

Paths as text, with slashes between their components. Empty components and `.` count for nothing,
except a `.` at the very start.

* `Path.splitSlash`: the pieces between slashes; `joinSlash_splitSlash` says that they give the
  path back.
* `Path.fileName?`, `Path.fileStem?`, `Path.parent?`: parts of a path.
* `Path.join`: a path inside another.
-/

namespace GoStencil.Path

/-- The pieces of some characters between slashes; there is always one. -/
def splitSlash : List Char → List (List Char)
  | [] => [[]]
  | c :: cs =>
    match splitSlash cs with
    | [] => [[c]]
    | piece :: pieces => if c = '/' then [] :: piece :: pieces else (c :: piece) :: pieces

/-- What stands before the first slash that separates components: the root, a leading `.`, or
    nothing; and the characters after it. -/
def splitHead : List Char → List Char × List Char
  | '/' :: rest => (['/'], rest)
  | ['.'] => (['.'], [])
  | '.' :: '/' :: rest => (['.'], '/' :: rest)
  | cs => ([], cs)

/-- Whether a piece counts as a component. -/
def isComponent (piece : List Char) : Bool :=
  !piece.isEmpty && piece != ['.']

/-- The pieces up to the last that counts as a component, the last piece first. -/
def trimmed (pieces : List (List Char)) : List (List Char) :=
  pieces.reverse.dropWhile (!isComponent ·)

/-- The last component, the root and a leading `.` aside. -/
def lastComponent? (path : String) : Option (List Char) :=
  (trimmed (splitSlash (splitHead path.toList).2)).head?

/-- The name of the file or directory, unless the path ends in `..`. -/
def fileName? (path : String) : Option String :=
  match lastComponent? path with
  | some name => if name = ['.', '.'] then none else some (String.ofList name)
  | none => none

/-- A name without its last dot and what follows it. A dot at the start is part of the name. -/
def stemOf (name : List Char) : List Char :=
  match name.reverse.dropWhile (· != '.') with
  | _ :: before => if before.isEmpty then name else before.reverse
  | [] => name

/-- The name of the file without its extension. -/
def fileStem? (path : String) : Option String :=
  (fileName? path).map fun name => String.ofList (stemOf name.toList)

/-- Some pieces with slashes between them. -/
def joinSlash : List (List Char) → List Char
  | [] => []
  | [piece] => piece
  | piece :: pieces => piece ++ '/' :: joinSlash pieces

theorem splitSlash_ne_nil (cs : List Char) : splitSlash cs ≠ [] := by
  fun_cases splitSlash cs <;> simp

/-- The pieces of some characters give them back. -/
theorem joinSlash_splitSlash (cs : List Char) : joinSlash (splitSlash cs) = cs := by
  induction cs with
  | nil => rfl
  | cons c cs ih =>
    cases h : splitSlash cs with
    | nil => exact absurd h (splitSlash_ne_nil cs)
    | cons piece pieces =>
      rw [h] at ih
      by_cases hc : c = '/'
      · simp [splitSlash, h, hc, joinSlash, ih]
      · cases pieces <;> simp_all [splitSlash, joinSlash]

/-- The path without its last component. The root and the empty path have no parent. -/
def parent? (path : String) : Option String :=
  let (head, body) := splitHead path.toList
  match trimmed (splitSlash body) with
  | _ :: before =>
    some (String.ofList (head ++ joinSlash (before.dropWhile (!isComponent ·)).reverse))
  | [] => if head = ['.'] then some "" else none

/-- The second path inside the first; an absolute path stands for itself. -/
def join (directory path : String) : String :=
  if path.toList.head? = some '/' then path
  else if directory.isEmpty || directory.toList.getLast? = some '/' then directory ++ path
  else directory ++ "/" ++ path

end GoStencil.Path
