import ModuleGraph.FilePath

/-!
# Reading files

`ReadFile` is what the rest of the library knows of a file system: the text of the file at a path,
or why it cannot be read. `FileTree` is a file system in memory.
-/

namespace ModuleGraph

/-- Why a file cannot be read. -/
inductive ReadFault where
  | missing
  | notDirectory
  | isDirectory
  | nameTooLong
  | invalidName
  | other (message : String)
deriving DecidableEq, Repr

/-- The message of a read fault. -/
def ReadFault.message : ReadFault → String
  | .missing => "No such file or directory (os error 2)"
  | .notDirectory => "Not a directory (os error 20)"
  | .isDirectory => "Is a directory (os error 21)"
  | .nameTooLong => "File name too long (os error 36)"
  | .invalidName => "file name contained an unexpected NUL byte"
  | .other message => message

/-- Whether the fault means that nothing is at the path. -/
def ReadFault.isAbsence : ReadFault → Bool
  | .isDirectory | .other _ => false
  | _ => true

/-- Reads the file at a path. -/
abbrev ReadFile := String → Except ReadFault String

/-- The size of a path in bytes from which on it is refused. -/
def pathSizeLimit : Nat :=
  4096

/-- Files by the names that lead to them, and the directory that relative paths start from. -/
structure FileTree where
  current : List String
  files : List (List String × String)

namespace FileTree

/-- A place in a tree: a directory, or a file with its text. -/
inductive Place where
  | directory (names : List String)
  | file (text : String)

/-- The tree with one more file, which takes the place of an earlier one. -/
def write (tree : FileTree) (path text : String) : FileTree :=
  let names :=
    if FilePath.isAbsolute path then FilePath.names path
    else tree.current ++ FilePath.names path
  { tree with files := (names, text) :: tree.files.filter (·.1 != names) }

/-- Whether names lead to a directory. -/
def isDirectory (tree : FileTree) (names : List String) : Bool :=
  names.isPrefixOf tree.current || tree.files.any fun f => names.isPrefixOf f.1 && names != f.1

/-- The place of a name in a directory. -/
def enter (tree : FileTree) (directory : List String) (name : String) : Except ReadFault Place :=
  if name = "" ∨ name = "." then .ok (.directory directory)
  else if name = ".." then .ok (.directory directory.dropLast)
  else if 255 < name.utf8ByteSize then .error .nameTooLong
  else
    let names := directory ++ [name]
    match tree.files.lookup names with
    | some text => .ok (.file text)
    | none => if tree.isDirectory names then .ok (.directory names) else .error .missing

/-- The place that pieces of a path lead to. -/
def walk (tree : FileTree) : Place → List String → Except ReadFault Place
  | place, [] => .ok place
  | .file _, _ :: _ => .error .notDirectory
  | .directory names, piece :: pieces =>
    match tree.enter names piece with
    | .ok place => tree.walk place pieces
    | .error fault => .error fault

/-- The place at a path. -/
def place (tree : FileTree) (path : String) : Except ReadFault Place :=
  if path = "" then .error .missing
  else if path.toList.contains '\x00' then .error .invalidName
  else if pathSizeLimit ≤ path.utf8ByteSize then .error .nameTooLong
  else
    tree.walk (.directory (if FilePath.isAbsolute path then [] else tree.current))
      (FilePath.pieces path)

/-- Reads the file at a path. -/
def read (tree : FileTree) : ReadFile := fun path =>
  match tree.place path with
  | .ok (.file text) => .ok text
  | .ok (.directory _) => .error .isDirectory
  | .error fault => .error fault

end FileTree

end ModuleGraph
