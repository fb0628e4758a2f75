import ModuleGraph.Settings
import ModuleGraph.Toml.Parser

/-!
# Layers of settings

Settings are laid over each other, the later ones winning: those of the user, those of the project,
and those of the environment. `Settings.merge` lays the members of a TOML document over settings, in
the order of their keys, and a member that cannot be read ends the layer where it stands.
`Settings.load` lays all layers over the standard settings.
-/

namespace ModuleGraph

/-- A change of settings. One that fails keeps what it has changed until then. -/
abbrev SettingsM := EStateM SettingsFault Settings

namespace Settings

/-- Sets what a key names. -/
def put (key text : String) : SettingsM Unit := fun settings =>
  match settings.set key text with
  | .ok settings => .ok () settings
  | .error fault => .error fault settings

/-- Members in the order of their keys. -/
def sortedByKey {α : Type} (members : List (String × α)) : List (String × α) :=
  members.mergeSort fun a b => a.1 ≤ b.1

/-- The import map's path seen from where its file's directory is. -/
def rebase (path : String) (settings : Settings) : Settings :=
  match settings.importMap, FilePath.parent? path with
  | some map, some directory => { settings with importMap := some (FilePath.join directory map) }
  | _, _ => settings

/-- Lays the members of a document over the settings. The path of an import map starts from the
directory of the document. -/
def merge (path : String) (members : List (String × Toml)) : SettingsM Unit := do
  (sortedByKey members).forM fun m => put m.1 m.2.plainText
  if members.any (·.1 == Setting.importMap.key) then
    modify (rebase path)

/-- Lays the document of a file over the settings. -/
def mergeFile (read : ReadFile) (path : String) : SettingsM Unit := do
  match read path with
  | .error fault => throw (.unreadable path fault)
  | .ok text =>
    match Toml.parse? text with
    | none => throw (.malformed path)
    | some members => merge path members

/-- Lays the document of a file over the settings if there is something at the path. -/
def mergeIfPresent (read : ReadFile) (path : String) : SettingsM Unit :=
  match read path with
  | .error fault => if fault.isAbsence then pure () else mergeFile read path
  | .ok _ => mergeFile read path

/-! ## The layers -/

/-- Variables of the environment, with their values. -/
abbrev Environment := List (String × String)

/-- The path of the project's settings. -/
def projectPath : String :=
  "spacey-fragments.toml"

/-- The path of the user's settings: in the user's configuration directory, which is in the home
directory unless an absolute path is given for it. -/
def userPath? (environment : Environment) : Option String :=
  let directory :=
    match environment.lookup "XDG_CONFIG_HOME" with
    | some directory => if FilePath.isAbsolute directory then some directory else none
    | none => none
  let home := (environment.lookup "HOME").filter (· != "")
  (directory.or (home.map (FilePath.join · ".config"))).map
    (FilePath.join · "spacey-fragments/config.toml")

/-- What names of variables begin with that hold settings. -/
def variableStart : List Char :=
  "SPACEY_FRAGMENTS_".toList

/-- The key that the name of a variable stands for. -/
def variableKey? (name : String) : Option String :=
  if variableStart.isPrefixOf name.toList then
    some (String.ofList ((name.toList.drop variableStart.length).map Char.toLower))
  else none

/-- Lays the variables of the environment over the settings. -/
def mergeEnvironment (environment : Environment) : SettingsM Unit :=
  (sortedByKey environment).forM fun (name, text) =>
    match variableKey? name with
    | some key => put key text
    | none => pure ()

/-- The layers over the settings. `project` is the path of other settings than the project's. -/
def layers (read : ReadFile) (environment : Environment) (project : Option String) :
    SettingsM Unit := do
  match userPath? environment with
  | some path => mergeIfPresent read path
  | none => pure ()
  match project with
  | some path => mergeFile read path
  | none => mergeIfPresent read projectPath
  mergeEnvironment environment

/-- The settings of all layers. -/
def load (read : ReadFile) (environment : Environment) (project : Option String) :
    Except SettingsFault Settings :=
  match (layers read environment project).run standard with
  | .ok _ settings => .ok settings
  | .error fault _ => .error fault

/-! ## The import map -/

/-- The import map that is set. Its addresses are relative to its file. -/
def readImportMap (read : ReadFile) (directory : String) (settings : Settings) :
    Except SettingsFault (Option ImportMap) :=
  match settings.importMap with
  | none => .ok none
  | some path =>
    match read path with
    | .error fault => .error (.importMapUnreadable path fault)
    | .ok text =>
      let base := Url.ofFilePath (FilePath.join directory path)
      ((ImportMap.ofJson text base).mapError .importMap).map some

end Settings

end ModuleGraph
