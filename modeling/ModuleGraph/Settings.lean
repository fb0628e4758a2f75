import ModuleGraph.FileTree
import ModuleGraph.ImportMap

/-!
# Settings

What a user can set: the import map, how many resources are fetched at once, whether remote modules
are allowed, how long a remote fetch may take, and what is logged. A setting is named by a key, in
which hyphens stand for underscores, and is given as text; `Settings.set` reads the text and
`Settings.get?` writes it. Keys that name no setting are ignored.
-/

namespace ModuleGraph

/-- What can be set. -/
inductive Setting where
  | importMap
  | maxConcurrentFetches
  | allowRemote
  | timeout
  | logLevel
deriving DecidableEq, Repr

namespace Setting

/-- All settings. -/
def all : List Setting :=
  [.importMap, .maxConcurrentFetches, .allowRemote, .timeout, .logLevel]

/-- The key of a setting. -/
def key : Setting → String
  | .importMap => "import_map"
  | .maxConcurrentFetches => "max_concurrent_fetches"
  | .allowRemote => "allow_remote"
  | .timeout => "timeout"
  | .logLevel => "log_level"

/-- A key with underscores for its hyphens. -/
def normalKey (key : String) : String :=
  key.map fun c => if c = '-' then '_' else c

/-- The setting that a key names. -/
def ofKey? (key : String) : Option Setting :=
  all.find? fun s => s.key == normalKey key

end Setting

/-- The values of all settings. No more than `maxConcurrentFetches` resources are fetched at once,
where zero is no bound, and a remote fetch may take `timeout` seconds. -/
structure Settings where
  importMap : Option String
  maxConcurrentFetches : UInt64
  allowRemote : Bool
  timeout : UInt64
  logLevel : String
deriving DecidableEq, Repr

/-- Why settings cannot be read. -/
inductive SettingsFault where
  | invalidValue (key value : String)
  | unreadable (path : String) (fault : ReadFault)
  | malformed (path : String)
  | importMapUnreadable (path : String) (fault : ReadFault)
  | importMap (fault : ImportMapFault)
deriving DecidableEq, Repr

/-- The message of a fault. -/
def SettingsFault.message : SettingsFault → String
  | .invalidValue key value => "Invalid config value for '" ++ key ++ "': " ++ value
  | .unreadable path fault => "Failed to read config " ++ path ++ ": " ++ fault.message
  | .malformed path => "Invalid config " ++ path ++ ": no TOML document"
  | .importMapUnreadable path fault => "Failed to read import map " ++ path ++ ": " ++ fault.message
  | .importMap fault => fault.message

namespace Settings

/-- The settings of a user who sets nothing. -/
def standard : Settings :=
  ⟨none, 16, false, 30, "warn"⟩

/-- The number that decimal digits, perhaps after a plus sign, spell in 64 bits. -/
def number? (text : String) : Option UInt64 :=
  let digits :=
    match text.toList with
    | '+' :: cs => cs
    | cs => cs
  if digits.isEmpty || !digits.all Char.isDigit then none
  else
    let n := digits.foldl (fun n c => 10 * n + (c.toNat - '0'.toNat)) 0
    if n < UInt64.size then some (UInt64.ofNat n) else none

/-- The truth value that a word or digit spells, in letters of either case. -/
def flag? (text : String) : Option Bool :=
  let word := text.map Char.toLower
  if word ∈ ["true", "1", "yes"] then some true
  else if word ∈ ["false", "0", "no"] then some false
  else none

/-- The path that a text spells. The empty text is no path. -/
def path? (text : String) : Option String :=
  if text = "" then none else some text

/-- The settings with one of them read from a text. -/
def assign? (settings : Settings) (setting : Setting) (text : String) : Option Settings :=
  match setting with
  | .importMap => some { settings with importMap := path? text }
  | .maxConcurrentFetches => (number? text).map ({ settings with maxConcurrentFetches := · })
  | .allowRemote => (flag? text).map ({ settings with allowRemote := · })
  | .timeout => (number? text).map ({ settings with timeout := · })
  | .logLevel => some { settings with logLevel := text }

/-- The settings with the one that a key names read from a text. -/
def set (settings : Settings) (key text : String) : Except SettingsFault Settings :=
  match Setting.ofKey? key with
  | none => .ok settings
  | some setting =>
    match settings.assign? setting text with
    | some settings => .ok settings
    | none => .error (.invalidValue key text)

/-- A setting as text. -/
def textOf (settings : Settings) : Setting → Option String
  | .importMap => settings.importMap
  | .maxConcurrentFetches => some (toString settings.maxConcurrentFetches.toNat)
  | .allowRemote => some (if settings.allowRemote then "true" else "false")
  | .timeout => some (toString settings.timeout.toNat)
  | .logLevel => some settings.logLevel

/-- The setting that a key names, as text. -/
def get? (settings : Settings) (key : String) : Option String :=
  (Setting.ofKey? key).bind settings.textOf

end Settings

end ModuleGraph
