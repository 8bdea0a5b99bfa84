import GoStencil.Files
import GoStencil.Path

/-!
# Files as a value

A file system in which nothing else happens: directories and files under absolute addresses, and
a working directory. Paths are followed component by component, so `..` leads through directories
that exist.

* `FileTree.readText?`, `FileTree.isFile`: what is there.
* `FileTree.makeDirs`, `FileTree.write`: what changes it; each says whether it succeeded.
* `FileTree.files`: the same as access to files.
-/

namespace GoStencil

/-- The names from the root to a place. -/
abbrev Address := List String

/-- What an address leads to. -/
inductive FileEntry where
  | directory
  | file (contents : ByteArray)

/-- Directories and files, and the working directory. The root is there without an entry. -/
structure FileTree where
  entries : List (Address × FileEntry)
  workingDirectory : Address

namespace FileTree

/-- The entry at an address. -/
def entry? (tree : FileTree) : Address → Option FileEntry
  | [] => some .directory
  | address => tree.entries.lookup address

/-- Whether an address leads to a directory. -/
def isDirectoryAt (tree : FileTree) (address : Address) : Bool :=
  match tree.entry? address with
  | some .directory => true
  | _ => false

/-- Whether a directory can hold a name. -/
def isName (piece : List Char) : Bool :=
  (String.ofList piece).utf8ByteSize ≤ 255 && !piece.contains '\x00'

/-- Where following a path can end. -/
inductive Walk where
  /-- At this address, where there may be nothing yet. -/
  | reached (address : Address)
  /-- A directory on the way does not exist. -/
  | missing
  /-- Something on the way is not a directory. -/
  | blocked

/-- Follows the pieces of a path from an address. -/
def walk (tree : FileTree) : Address → List (List Char) → Walk
  | address, [] => .reached address
  | address, piece :: pieces =>
    match tree.entry? address with
    | none => .missing
    | some (.file _) => .blocked
    | some .directory =>
      if !Path.isComponent piece then walk tree address pieces
      else if piece = ['.', '.'] then walk tree address.dropLast pieces
      else if isName piece then walk tree (address ++ [String.ofList piece]) pieces
      else .blocked

/-- Follows a path. -/
def locate (tree : FileTree) (path : String) : Walk :=
  match path.toList with
  | [] => .missing
  | '/' :: rest => tree.walk [] (Path.splitSlash rest)
  | cs => tree.walk tree.workingDirectory (Path.splitSlash cs)

/-- The contents of a file. -/
def read? (tree : FileTree) (path : String) : Option ByteArray :=
  match tree.locate path with
  | .reached address =>
    match tree.entry? address with
    | some (.file contents) => some contents
    | _ => none
  | _ => none

/-- The contents of a file that holds text. -/
def readText? (tree : FileTree) (path : String) : Option String :=
  (tree.read? path).bind String.fromUTF8?

/-- Whether a path leads to a file. -/
def isFile (tree : FileTree) (path : String) : Bool :=
  (tree.read? path).isSome

/-- Whether a path leads to a directory. -/
def isDirectory (tree : FileTree) (path : String) : Bool :=
  match tree.locate path with
  | .reached address => tree.isDirectoryAt address
  | _ => false

/-- The tree with an entry at an address. -/
def put (tree : FileTree) (address : Address) (entry : FileEntry) : FileTree :=
  { tree with entries := (address, entry) :: tree.entries.filter (·.1 ≠ address) }

/-- How making a directory can end. -/
inductive MakeDir where
  | made (tree : FileTree)
  /-- The directory that was to hold it does not exist. -/
  | missing
  /-- Something else prevents it. -/
  | refused

/-- Makes one directory. -/
def makeDir (tree : FileTree) (path : String) : MakeDir :=
  match tree.locate path with
  | .reached address =>
    match tree.entry? address with
    | some _ => .refused
    | none =>
      match tree.entry? address.dropLast with
      | some .directory => .made (tree.put address .directory)
      | some (.file _) => .refused
      | none => .missing
  | .missing => .missing
  | .blocked => .refused

/-- Makes a directory and those above it. The number bounds how many there are above. -/
def makeDirsFrom : Nat → FileTree → String → FileTree × Bool
  | 0, tree, path => (tree, tree.isDirectory path)
  | depth + 1, tree, path =>
    if path.isEmpty then (tree, true)
    else
      match tree.makeDir path with
      | .made grown => (grown, true)
      | .refused => (tree, tree.isDirectory path)
      | .missing =>
        match Path.parent? path with
        | none => (tree, false)
        | some parent =>
          match makeDirsFrom depth tree parent with
          | (grown, false) => (grown, false)
          | (grown, true) =>
            match grown.makeDir path with
            | .made last => (last, true)
            | _ => (grown, grown.isDirectory path)

/-- Makes a directory and those above it, where they do not exist. -/
def makeDirs (tree : FileTree) (path : String) : FileTree × Bool :=
  makeDirsFrom (path.toList.length + 1) tree path

/-- Writes a text into a file, which may exist, in a directory that does. -/
def write (tree : FileTree) (path text : String) : FileTree × Bool :=
  match tree.locate path with
  | .reached address =>
    match tree.entry? address, tree.entry? address.dropLast with
    | some .directory, _ => (tree, false)
    | _, some .directory => (tree.put address (.file text.toUTF8), true)
    | _, _ => (tree, false)
  | _ => (tree, false)

/-- The operations on a tree as access to files. -/
def files : Files (StateM FileTree) where
  readText? path := fun tree => (tree.readText? path, tree)
  isFile path := fun tree => (tree.isFile path, tree)
  makeDirs path := fun tree => ((tree.makeDirs path).2, (tree.makeDirs path).1)
  write path text := fun tree => ((tree.write path text).2, (tree.write path text).1)

/-- The tree with a file, and the directories above it, at an address. -/
def addFile (tree : FileTree) (address : Address) (contents : ByteArray) : FileTree :=
  let above := (List.range address.length).map (address.take ·)
  let withDirs := above.foldl
    (fun tree address => if tree.isDirectoryAt address then tree else tree.put address .directory)
    tree
  withDirs.put address (.file contents)

end FileTree

end GoStencil
