import ModuleGraph.ModuleMap

/-!
# Export resolution

`ModuleMap.resolveExport` follows an export name through re-exports and `export *` to the binding or
namespace that it stands for, and `ModuleMap.exportedNames` lists the names that a module offers.
The graph of re-exports may have cycles; a name of a module that is met a second time leads nowhere.
-/

namespace ModuleGraph

/-- What an export name stands for: a local binding, or the namespace of a module. -/
inductive ExportTarget where
  | binding (key : ModuleKey) (localName : String)
  | namespace (key : ModuleKey)
deriving DecidableEq, Repr

/-- A loaded module as export resolution sees it. -/
structure LinkView where
  body : Body
  dependencies : List ModuleKey
deriving DecidableEq, Repr

namespace LinkView

/-- The dependency that a request of the body names. -/
def dependency? (v : LinkView) (request : Specifier) : Option ModuleKey :=
  (v.body.requestIndex? request).bind fun i => v.dependencies[i]?

/-- The dependencies whose exports the body offers under their own names. -/
def starDependencies (v : LinkView) : List ModuleKey :=
  v.body.starExports.filterMap v.dependency?

/-- The export of a local binding under a name. -/
def localExport? (v : LinkView) (name : String) : Option LocalExport :=
  v.body.localExports.find? (·.exportName == name)

/-- The export of another module's binding under a name. -/
def indirectExport? (v : LinkView) (name : String) : Option IndirectExport :=
  v.body.indirectExports.find? (·.exportName == name)

end LinkView

/-- The view of an entry that has been loaded. -/
def Entry.linkView? (e : Entry) : Option LinkView :=
  match e.progress.dependencies?, e.body? with
  | some dependencies, some body => some ⟨body, dependencies⟩
  | _, _ => none

/-- The answer to an export name, or why it has no single one. -/
abbrev ExportAnswer := Except ExportFault ExportTarget

/-- The modules and names that have been met. -/
abbrev Visited := List (ModuleKey × String)

/-- Joins the answers of several modules to one name: the target that all those with a target agree
on. Targets that differ, within a module or between two, are ambiguous. -/
def joinAnswers (ask : ModuleKey → Visited → ExportAnswer × Visited) :
    (modules : List ModuleKey) → (found : Option ExportTarget) → Visited → ExportAnswer × Visited
  | [], some target, visited => (.ok target, visited)
  | [], none, visited => (.error .missing, visited)
  | key :: keys, found, visited =>
    match ask key visited with
    | (.error .ambiguous, visited) => (.error .ambiguous, visited)
    | (.error _, visited) => joinAnswers ask keys found visited
    | (.ok target, visited) =>
      match found with
      | none => joinAnswers ask keys (some target) visited
      | some first =>
        if first = target then joinAnswers ask keys found visited
        else (.error .ambiguous, visited)

namespace ModuleMap

/-- The view of a loaded module. -/
def linkView? (map : ModuleMap) (key : ModuleKey) : Option LinkView :=
  (map.get? key).bind Entry.linkView?

/-- Follows a name from a module. No way through the graph is longer than the number of pairs of a
module and a name, so that `depth` need not exceed it. -/
def followExport (map : ModuleMap) :
    (depth : Nat) → ModuleKey → String → Visited → ExportAnswer × Visited
  | 0, _, _, visited => (.error .circular, visited)
  | n + 1, key, name, visited =>
    if (key, name) ∈ visited then (.error .circular, visited)
    else
      let visited := (key, name) :: visited
      match map.linkView? key with
      | none => (.error .missing, visited)
      | some view =>
        match view.localExport? name with
        | some e => (.ok (.binding key e.localName), visited)
        | none =>
          match view.indirectExport? name with
          | some e =>
            match view.dependency? e.request with
            | none => (.error .missing, visited)
            | some target =>
              match e.importName with
              | .namespace => (.ok (.namespace target), visited)
              | .name imported => followExport map n target imported visited
          | none =>
            -- `export *` never passes a default export on
            if name = "default" then (.error .missing, visited)
            else
              joinAnswers (fun target => followExport map n target name) view.starDependencies none
                visited

/-- The number of indirect exports of all modules. -/
def indirectExportCount (map : ModuleMap) : Nat :=
  map.entries.foldr (fun e n =>
    match e.body? with
    | some body => body.indirectExports.length + n
    | none => n) 0

/-- A number that no way through the graph of re-exports exceeds: a way visits each module for a
name at most once, and only indirect exports bring in new names. -/
def exportBound (map : ModuleMap) : Nat :=
  (map.entries.length + 1) * (map.indirectExportCount + 1)

/-- What a name exported by a module stands for. -/
def resolveExport (map : ModuleMap) (key : ModuleKey) (name : String) : ExportAnswer :=
  (map.followExport (map.exportBound + 1) key name []).1

/-- The names of a list that are neither `default` nor in `names`, added to it. -/
def addNames (names more : List String) : List String :=
  more.foldl (fun names name => if name = "default" ∨ name ∈ names then names else names ++ [name])
    names

/-- Collects the names of modules that `ask` knows, for `export *`. -/
def collectNames (ask : ModuleKey → List ModuleKey → List String × List ModuleKey) :
    (modules : List ModuleKey) → (names : List String) → (visited : List ModuleKey) →
      List String × List ModuleKey
  | [], names, visited => (names, visited)
  | key :: keys, names, visited =>
    let (more, visited) := ask key visited
    collectNames ask keys (addNames names more) visited

/-- The names offered by a module that has not been visited. Each level has a module of its own, so
that `depth` need not exceed their number. -/
def followNames (map : ModuleMap) :
    (depth : Nat) → ModuleKey → (visited : List ModuleKey) → List String × List ModuleKey
  | 0, _, visited => ([], visited)
  | n + 1, key, visited =>
    if key ∈ visited then ([], visited)
    else
      match map.linkView? key with
      | none => ([], key :: visited)
      | some view =>
        collectNames (followNames map n) view.starDependencies
          (view.body.localExports.map LocalExport.exportName
            ++ view.body.indirectExports.map IndirectExport.exportName)
          (key :: visited)

/-- The names that a module offers: its own, and with `export *` those of other modules except
`default`. -/
def exportedNames (map : ModuleMap) (key : ModuleKey) : List String :=
  (map.followNames (map.entries.length + 1) key []).1

end ModuleMap

end ModuleGraph
