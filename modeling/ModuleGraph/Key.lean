import ModuleGraph.Fragment.Path
import ModuleGraph.Url.Parser

/-!
# Module keys

A module is named by the URL of its resource, without a fragment, and the path to it inside that
resource. `ModuleKey.text` writes a key as a URL whose fragment is the path, and `ModuleKey.parse`
reads one.
-/

namespace ModuleGraph

/-- The name of a module. The URL is that of its resource and has no fragment of its own. -/
@[ext]
structure ModuleKey where
  url : Url
  path : FragmentPath
  [bare : url.IsBare]
deriving DecidableEq, Repr

attribute [instance] ModuleKey.bare

/-- Why a specifier names no module. -/
inductive SpecifierFault where
  | empty
  | unmapped
  | url (fault : UrlFault)
  | path (fragment : String)
deriving DecidableEq, Repr

/-- The message of a specifier fault. -/
def SpecifierFault.message : SpecifierFault → String
  | .empty => "empty specifier"
  | .unmapped => "bare specifiers must be mapped by an import map"
  | .url fault => fault.message
  | .path fragment => "'" ++ fragment ++ "' is not a valid fragment path"

namespace FragmentPath

/-- The segment that percent-encoded text stands for. Text that is a segment as it stands, such as
`%0`, is not decoded. -/
def decodeSegment? (cs : List Char) : Option String :=
  if isSegment cs then some (String.ofList cs)
  else do
    let decoded ← Percent.decodeText? cs
    if Text.isIdentifierName decoded then some (String.ofList decoded) else none

/-- The path that the fragment of a URL spells. -/
def ofFragment? (fragment : String) : Option FragmentPath :=
  (Text.splitWhere (· == '/') fragment.toList).mapM decodeSegment?

end FragmentPath

namespace ModuleKey

/-- The key of a path in the resource of a URL, whose own fragment is dropped. -/
def ofUrl (url : Url) (path : FragmentPath) : ModuleKey :=
  ⟨url.withoutFragment, path⟩

/-- The key of a resource's top-level module. -/
def root (url : Url) : ModuleKey :=
  ofUrl url []

/-- The key of a URL whose fragment, if there is one, spells the path. -/
def ofReference (url : Url) : Except SpecifierFault ModuleKey :=
  match url.fragment with
  | none | some "" => .ok (root url)
  | some fragment =>
    match FragmentPath.ofFragment? fragment with
    | some path => .ok (ofUrl url path)
    | none => .error (.path fragment)

/-- Reads a key. -/
def parse (text : String) : Except SpecifierFault ModuleKey :=
  match Url.parse text with
  | .ok url => ofReference url
  | .error fault => .error (.url fault)

/-- A key as written. -/
def text (k : ModuleKey) : String :=
  if k.path.isEmpty then k.url.text else k.url.text ++ "#" ++ k.path.text

/-- Whether the key names the top-level module of its resource. -/
def isRoot (k : ModuleKey) : Bool :=
  k.path.isEmpty

/-- The number of modules that the key's module is declared in. -/
def depth (k : ModuleKey) : Nat :=
  k.path.length

/-- The key of a module declared directly inside. -/
def child (k : ModuleKey) (segment : String) : ModuleKey :=
  ⟨k.url, k.path.child segment⟩

/-- The key of the module that the key's module is declared in. -/
def parent? (k : ModuleKey) : Option ModuleKey :=
  if k.path.isEmpty then none else some ⟨k.url, k.path.dropLast⟩

/-- The keys from the first fragment below the root down to the key itself. -/
def ancestry (k : ModuleKey) : List ModuleKey :=
  (List.range k.path.length).map fun n => ⟨k.url, k.path.take (n + 1)⟩

/-- Whether two keys are of one resource. -/
def sameResource (k l : ModuleKey) : Bool :=
  k.url == l.url

/-- The order of keys: by the text of the URL, then by the path. -/
def compare (k l : ModuleKey) : Ordering :=
  (Ord.compare k.url.text l.url.text).then (Ord.compare k.path l.path)

/-- Keys in their order. -/
def sorted (ks : List ModuleKey) : List ModuleKey :=
  ks.mergeSort fun k l => (compare k l).isLE

end ModuleKey

end ModuleGraph
