import ModuleGraph.Url.Percent
import ModuleGraph.Url
import ModuleGraph.Text.Split

/-!
# File paths

Paths of files as text, with slashes between their names, and the `file` URLs that stand for them.
`Url.ofFilePath` and `Url.filePath?` lead from one to the other.
-/

namespace ModuleGraph

namespace FilePath

/-- Whether a path starts at the root. -/
def isAbsolute (path : String) : Bool :=
  path.toList.head? == some '/'

/-- The texts between the slashes of a path. -/
def pieces (path : String) : List String :=
  (Text.splitWhere (· == '/') path.toList).map String.ofList

/-- The names on the way to a file from the root. -/
def names (path : String) : List String :=
  (pieces path).filter fun p => p != "" && p != "."

/-- Pieces without those at the end that lead nowhere. A point alone at the start of a relative path
stays. -/
def trimEnd (absolute : Bool) : List String → List String
  | [] => []
  | p :: ps =>
    let rest := (ps.reverse.dropWhile fun p => p == "" || p == ".").reverse
    if rest.isEmpty && (p == "" || (absolute && p == ".")) then [] else p :: rest

/-- The path of the directory that a file is in, as far as the path tells. -/
def parent? (path : String) : Option String :=
  let absolute := isAbsolute path
  let kept := trimEnd absolute (if absolute then (pieces path).drop 1 else pieces path)
  if kept.isEmpty then none
  else
    some ((if absolute then "/" else "") ++ "/".intercalate (trimEnd absolute kept.dropLast))

/-- A path relative to a directory; an absolute path stays as it is. -/
def join (directory path : String) : String :=
  if isAbsolute path || directory == "" then path
  else if directory.toList.getLast? == some '/' then directory ++ path
  else directory ++ "/" ++ path

end FilePath

namespace Url

/-- What is encoded in a path segment that stands for a file name. -/
def fileNameSet (c : Char) : Bool :=
  Percent.pathSet c || c == '/' || c == '%' || c == '\\'

/-- The `file` URL with given path segments. -/
def ofFileSegments (segments : List String) : Url :=
  ⟨"file", some (Authority.ofHost ""), .segments segments, none, none⟩

/-- The URL of the file at an absolute path. Names are kept as they are, also two points. -/
def ofFilePath (path : String) : Url :=
  match FilePath.names path with
  | [] => ofFileSegments [""]
  | names =>
    ofFileSegments (names.map fun n => String.ofList (Percent.encode fileNameSet n.toList))

/-- The URL of the directory at an absolute path. -/
def ofDirectoryPath (path : String) : Url :=
  match FilePath.names path with
  | [] => ofFileSegments [""]
  | names =>
    ofFileSegments
      (names.map (fun n => String.ofList (Percent.encode fileNameSet n.toList)) ++ [""])

/-- Bytes as characters. Bytes that are no UTF-8 become replacement characters beyond ASCII. -/
def readableText (bytes : List UInt8) : List Char :=
  match Percent.ofUtf8? bytes with
  | some cs => cs
  | none => bytes.map fun b => if b.toNat < 0x80 then Char.ofNat b.toNat else '\uFFFD'

/-- Whether a path ends in the name of a drive. -/
def endsInDrive (cs : List Char) : Bool :=
  match cs.reverse with
  | mark :: letter :: _ :: _ => (mark == ':' || mark == '|') && letter.isAlpha
  | _ => false

/-- The path of the file that a URL stands for, if it has a path on this machine. -/
def filePath? (u : Url) : Option String :=
  if u.pathSegments.isEmpty || !(u.host?.isNone || u.host? == some "localhost") then none
  else
    let cs := readableText (u.pathSegments.flatMap fun s =>
      UInt8.ofNat 0x2F :: Percent.decode s.toList)
    some (String.ofList (if endsInDrive cs then cs ++ ['/'] else cs))

end Url

end ModuleGraph
