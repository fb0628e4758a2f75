import ModuleGraph.Fetch
import ModuleGraph.Script
import ModuleGraph.Settings.Layers

/-!
# Sessions

A session is a directory in which modules are loaded under settings. Its realms take specifiers
relative to the directory and run no code: their bodies only settle exports. Resources are fetched
outside of the realm, so that a realm runs with those that are known and tells which it asked for.
-/

namespace ModuleGraph

/-- A directory with the settings under which modules are loaded in it. -/
structure Session where
  directory : String
  settings : Settings
  importMap : ImportMap

namespace Session

/-- The session in a directory under settings, whose import map is read. -/
def ofSettings (read : ReadFile) (directory : String) (settings : Settings) :
    Except SettingsFault Session :=
  match settings.readImportMap read directory with
  | .ok map => .ok ⟨directory, settings, map.getD ImportMap.empty⟩
  | .error fault => .error fault

/-- The URL that specifiers are relative to. -/
def base (s : Session) : Url :=
  Url.ofDirectoryPath s.directory

/-- The host of the session's realms. -/
def host (s : Session) (library : Library) : Host Cells :=
  ⟨s.base, s.importMap, library, settling⟩

/-- The answer for a URL, from a remote source only where settings allow that. -/
def fetch (s : Session) (read : ReadFile) (remote : Url → FetchAnswer) (url : Url) : FetchAnswer :=
  let source := fun url () => (remote url, ())
  (Fetch.byScheme read (if s.settings.allowRemote then some source else none) url ()).1

/-- A realm in which nothing is known. -/
def realm : Realm Cells :=
  Realm.fresh []

end Session

/-- The URLs that a realm asked for and that are not among the known ones. -/
def Realm.unknown {σ : Type} (r : Realm σ) (known : List (Url × FetchAnswer)) : List Url :=
  r.catalog.fetched.filter fun url => !known.any (·.1 == url)

end ModuleGraph
