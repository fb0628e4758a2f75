import ModuleGraph.Fragment.Path
import ModuleGraph.Statement

/-!
# Module bodies and fragments

A resource holds a top-level module body and the fragments declared in it, at any depth. A `Body`
lists what a module asks of others and offers to them; the rest of its source is kept as text.
-/

namespace ModuleGraph

/-- What is imported from a module: one of its exports, or its namespace. -/
inductive ImportName where
  | name (name : String)
  | namespace
deriving DecidableEq, Repr

/-- An imported binding. -/
structure ImportEntry where
  request : Specifier
  importName : ImportName
  localName : String
deriving DecidableEq, Repr

/-- An export of a local binding. -/
structure LocalExport where
  exportName : String
  localName : String
deriving DecidableEq, Repr

/-- An export of something that another module provides. -/
structure IndirectExport where
  exportName : String
  request : Specifier
  importName : ImportName
deriving DecidableEq, Repr

/-- The fragments that a body can import by name, in source order. -/
abbrev Scope := List (String × FragmentPath)

/-- The path of the fragment with a name. -/
def Scope.find? (scope : Scope) (name : String) : Option FragmentPath :=
  (scope.lookup name)

/-- The scope in the order of its names. -/
def Scope.sorted (scope : Scope) : Scope :=
  scope.mergeSort fun a b => a.1 ≤ b.1

/-- A module's declarations. `requests` holds each specifier once, in source order, and `residual`
the text of all code, one piece a line. -/
structure Body where
  requests : List Specifier
  imports : List ImportEntry
  localExports : List LocalExport
  indirectExports : List IndirectExport
  starExports : List Specifier
  scope : Scope
  residual : String
deriving DecidableEq, Repr

namespace Body

/-- The index of a request. -/
def requestIndex? (b : Body) (request : Specifier) : Option Nat :=
  b.requests.idxOf? request

/-- The import entry that binds a local name: the last one. -/
def importOf? (b : Body) (localName : String) : Option ImportEntry :=
  b.imports.reverse.find? (·.localName == localName)

end Body

/-- Whether a fragment is a declaration that others can import, or a value made by code. -/
inductive FragmentForm where
  | importable
  | inline
deriving DecidableEq, Repr

/-- A module declaration of a resource with its place and body. -/
structure Fragment where
  name : Option String
  path : FragmentPath
  exported : Bool
  form : FragmentForm
  body : Body
  span : Span
deriving DecidableEq, Repr

/-- The nesting depth of a fragment; those declared in the top-level module have depth one. -/
def Fragment.depth (f : Fragment) : Nat :=
  f.path.length

/-- The modules of a resource: its top-level module and all fragments, each before the fragments
declared in it. -/
structure Resource where
  root : Body
  fragments : List Fragment
deriving DecidableEq, Repr

namespace Resource

/-- The fragment at a path. -/
def fragment? (r : Resource) (path : FragmentPath) : Option Fragment :=
  r.fragments.find? (·.path == path)

/-- The body at a path; the empty path leads to the top-level module. -/
def body? (r : Resource) (path : FragmentPath) : Option Body :=
  if path.isEmpty then some r.root else (r.fragment? path).map Fragment.body

end Resource

/-- Why the declarations of a body contradict each other: a name given twice. -/
inductive ExtractionFault where
  | duplicateFragment (name : String) (path : FragmentPath)
  | duplicateExport (name : String) (path : FragmentPath)
deriving DecidableEq, Repr

/-- The message of an extraction fault. -/
def ExtractionFault.message : ExtractionFault → String
  | .duplicateFragment name path =>
    "Duplicate fragment name '" ++ name ++ "' in " ++ path.describe
  | .duplicateExport name path => "Duplicate export '" ++ name ++ "' in " ++ path.describe

end ModuleGraph
