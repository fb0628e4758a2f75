import ModuleGraph.Fragment.Extraction
import ModuleGraph.ModuleMap
import ModuleGraph.Statement.Parser

/-!
# Libraries and catalogs

A `Library` is where resources come from: finitely many URLs have a text, all others are refused. A
`Catalog` holds the modules that are known and the resources that have been had from a library. Each
URL is asked for once, whatever the answer, and `Catalog.obtain` registers all modules of a resource
at the moment it is had.
-/

namespace ModuleGraph

/-- The modules of a source text. -/
def Resource.ofText (text : String) : Except ResourceFault Resource :=
  match SyntaxTree.parse text.toList with
  | .error fault => .error (.parse fault)
  | .ok tree => (Resource.ofTree tree).mapError .extract

/-- The number of requests in all bodies of a resource. -/
def Resource.requestCount (r : Resource) : Nat :=
  r.fragments.foldr (fun f n => f.body.requests.length + n) r.root.requests.length

/-- A resource by URL, or why it has no modules. -/
abbrev ResourceTable := List (Url × Except ResourceFault Resource)

/-- The number of requests in all resources of a table. -/
def ResourceTable.requestCount (table : ResourceTable) : Nat :=
  table.foldr (fun r n =>
    match r.2 with
    | .ok resource => resource.requestCount + n
    | .error _ => n) 0

/-- Where resources come from. -/
structure Library where
  held : ResourceTable
  refusal : Url → FetchFault

namespace Library

/-- The library of source texts that knows nothing of other URLs. -/
def ofSources (sources : List (Url × String)) : Library :=
  ⟨sources.map fun s => (s.1, Resource.ofText s.2), fun url => .notFound url.text⟩

/-- The library with one more source text, which takes the place of an earlier one. -/
def insert (library : Library) (url : Url) (text : String) : Library :=
  { library with held := (url, Resource.ofText text) :: library.held.filter (·.1 != url) }

/-- What the library answers. -/
def fetch (library : Library) (url : Url) : Except ResourceFault Resource :=
  (library.held.lookup url).getD (.error (.fetch (library.refusal url)))

end Library

/-- The modules that are known, and the answers that a library has given, in their order. -/
structure Catalog where
  map : ModuleMap
  answers : ResourceTable

namespace Catalog

/-- The catalog in which nothing is known. -/
def empty : Catalog :=
  ⟨ModuleMap.empty, []⟩

/-- The URLs that have been asked for. -/
def fetched (catalog : Catalog) : List Url :=
  catalog.answers.map Prod.fst

/-- The answer that was given for a URL. -/
def answer? (catalog : Catalog) (url : Url) : Option (Except ResourceFault Resource) :=
  catalog.answers.lookup url

end Catalog

/-- Registers all modules of a resource. -/
def ModuleMap.declareAll (map : ModuleMap) (url : Url) (resource : Resource) : ModuleMap :=
  resource.fragments.foldl (fun map f => map.declare (ModuleKey.ofUrl url f.path) (.fragment f))
    (map.declare (ModuleKey.root url) (.module resource.root))

/-- The catalog with the answer for a URL, which is asked for unless that has been done before. -/
def Catalog.obtain (catalog : Catalog) (library : Library) (url : Url) : Catalog :=
  match catalog.answer? url with
  | some _ => catalog
  | none =>
    let answer := library.fetch url
    { map :=
        match answer with
        | .ok resource => catalog.map.declareAll url resource
        | .error _ => catalog.map
      answers := catalog.answers ++ [(url, answer)] }

end ModuleGraph
