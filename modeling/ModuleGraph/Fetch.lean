import ModuleGraph.FileTree
import ModuleGraph.Library
import ModuleGraph.Url.Parser

/-!
# Fetching source texts

Where the texts of a library come from: `SourceTable` holds them in memory and counts how often each
URL is asked for, `Fetch.file` reads local files, and `Fetch.byScheme` sends each URL to the source
that its scheme belongs to.
-/

namespace ModuleGraph

/-- A source text, or why it cannot be had. -/
abbrev FetchAnswer := Except FetchFault String

/-- Source texts by URL, and the URLs that have been asked for, in their order. -/
structure SourceTable where
  sources : List (Url × String)
  fetched : List Url
deriving DecidableEq, Repr

/-- A text that is no absolute URL and so names no resource. -/
structure ResourceUrlFault where
  text : String
  fault : UrlFault
deriving DecidableEq, Repr

/-- The message of the fault. -/
def ResourceUrlFault.message (f : ResourceUrlFault) : String :=
  "invalid resource URL '" ++ f.text ++ "': " ++ f.fault.message

/-- The URL of a resource. -/
def resourceUrl (text : String) : Except ResourceUrlFault Url :=
  (Url.parse text).mapError (⟨text, ·⟩)

namespace SourceTable

/-- The table of nothing. -/
def empty : SourceTable :=
  ⟨[], []⟩

/-- The table with one more text, which takes the place of an earlier one. -/
def insert (table : SourceTable) (url : Url) (text : String) : SourceTable :=
  { table with sources := (url, text) :: table.sources.filter (·.1 != url) }

/-- The text of a URL. -/
def fetch (table : SourceTable) (url : Url) : FetchAnswer × SourceTable :=
  let answer :=
    match table.sources.lookup url with
    | some text => .ok text
    | none => .error (.notFound url.text)
  (answer, { table with fetched := table.fetched ++ [url] })

/-- How often the URL that a text spells has been asked for. -/
def fetchCount (table : SourceTable) (text : String) : Nat :=
  match Url.parse text with
  | .ok url => table.fetched.count url
  | .error _ => 0

end SourceTable

namespace Fetch

/-- The text of a local file. -/
def file (read : ReadFile) (url : Url) : FetchAnswer :=
  match url.filePath? with
  | none => .error (.unreadable url.text "not a local file path")
  | some path =>
    match read path with
    | .ok text => .ok text
    | .error .missing => .error (.notFound url.text)
    | .error fault => .error (.unreadable url.text fault.message)

/-- The source that a URL is sent to. -/
inductive Source where
  | file
  | remote
  | unsupported
deriving DecidableEq, Repr

/-- The source that the scheme of a URL belongs to. -/
def source (url : Url) : Source :=
  if url.scheme = "file" then .file
  else if url.scheme = "http" ∨ url.scheme = "https" then .remote
  else .unsupported

/-- The text of a URL: of a local file by the scheme `file`, by `http` and `https` from a remote
source if there is one, and by no other scheme. `remote` stands for a remote source that keeps a
state. -/
def byScheme {σ : Type} (read : ReadFile) (remote : Option (Url → σ → FetchAnswer × σ)) (url : Url)
    (s : σ) : FetchAnswer × σ :=
  match source url, remote with
  | .file, _ => (file read url, s)
  | .remote, some fetch => fetch url s
  | .remote, none => (.error (.remoteDisabled url.text), s)
  | .unsupported, _ => (.error (.unsupportedScheme url.text url.scheme), s)

end Fetch

/-- The library of the URLs given, with the texts that `fetch` has for them. -/
def Library.ofAnswers (answers : List (Url × FetchAnswer)) : Library :=
  ⟨answers.map fun a =>
      (a.1,
        match a.2 with
        | .ok text => Resource.ofText text
        | .error fault => .error (.fetch fault)),
    fun url => .notFound url.text⟩

end ModuleGraph
