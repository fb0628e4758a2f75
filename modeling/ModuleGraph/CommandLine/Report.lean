import ModuleGraph.CommandLine.Arguments
import ModuleGraph.Session
import ModuleGraph.Terminal

/-!
# Reports of commands

What a command shows of the entry module that it was called for. `Session.report` runs a command
with the resources that are known.
-/

namespace ModuleGraph

open Terminal

/-- What a command has shown, the realm that it left, and why it failed if it did. -/
structure Report where
  output : String
  realm : Realm Cells
  failure : Option String

namespace Report

/-- The lines of modules that were run, numbered from one. -/
def ranLines (keys : List ModuleKey) : String :=
  String.join <| keys.mapIdx fun i key =>
    Style.dimmed.paint (padLeft 4 (toString (i + 1))) ++ " " ++ Style.cyan.paint key.text ++ "\n"

/-- The line of a module's exports, if it has any. -/
def exportsLine (i : Instance) : String :=
  if i.exportNames.isEmpty then ""
  else
    Style.bold.paint (Style.white.paint "exports:") ++ " " ++ ", ".intercalate i.exportNames ++ "\n"

/-- The style in which a status is shown. -/
def statusStyle : Status → Style
  | .failed => .red
  | .registered => .dimmed
  | _ => .green

/-- What is remarked of a module: that it is a value, or that it cannot be seen from outside. -/
def remark (map : ModuleMap) (e : Entry) : String :=
  if e.declaration.bind Declaration.form? = some .inline then " (inline)"
  else if map.isVisible e.key then ""
  else " (private)"

/-- The lines of a module: its status, its dependencies, and why it failed if it did. -/
def entryLines (map : ModuleMap) (e : Entry) : String :=
  let label := (statusStyle e.status).paint (padRight 12 e.status.text)
  let margin := padRight 15 ""
  let dependencies := e.dependencies.map fun d =>
    margin ++ Style.dimmed.paint "->" ++ " " ++ d.text ++ "\n"
  let failure :=
    match e.failure with
    | some failure => margin ++ Style.red.paint failure.message ++ "\n"
    | none => ""
  label ++ " " ++ e.key.text ++ Style.dimmed.paint (remark map e) ++ "\n"
    ++ String.join dependencies ++ failure

/-- The lines of all modules, in the order of their keys. -/
def graphLines (map : ModuleMap) : String :=
  String.join (map.sorted.map (entryLines map))

/-- The number of modules that are instantiated and not evaluated. -/
def linkedCount (map : ModuleMap) : Nat :=
  map.entries.countP (·.status == .instantiated)

/-- The line of a module that links. -/
def linkedLine (map : ModuleMap) (key : ModuleKey) : String :=
  Style.bold.paint (Style.green.paint "ok") ++ " " ++ key.text ++ " ("
    ++ toString (linkedCount map) ++ " modules linked)\n"

end Report

/-- The message of an end. -/
def Halt.message : Halt RealmFault → String
  | .fault f => f.message
  | .violation v => v.message

namespace Session

/-- Imports a module, and reports what was run and what is exported. -/
def reportRun (s : Session) (library : Library) (key : ModuleKey) : Report :=
  match Realm.importKey (s.host library) key realm with
  | .ok i r => ⟨Report.ranLines r.ran ++ Report.exportsLine i, r, none⟩
  | .error halt r => ⟨Report.ranLines r.ran, r, some halt.message⟩

/-- Loads a module, and reports all modules that are known then. -/
def reportGraph (s : Session) (library : Library) (key : ModuleKey) : Report :=
  match Realm.loadKey (s.host library) key realm with
  | .ok _ r => ⟨Report.graphLines r.map, r, none⟩
  | .error halt r => ⟨Report.graphLines r.map, r, some halt.message⟩

/-- Loads and instantiates a module, and reports how many modules were linked. -/
def reportCheck (s : Session) (library : Library) (key : ModuleKey) : Report :=
  let check : RealmM Cells Instance := do
    Realm.loadKey (s.host library) key
    Realm.instantiate key
  match check realm with
  | .ok _ r => ⟨Report.linkedLine r.map key, r, none⟩
  | .error halt r => ⟨"", r, some halt.message⟩

open CommandLine in
/-- Runs a command for a module. -/
def report (s : Session) (library : Library) (key : ModuleKey) : Command → Report
  | .run => s.reportRun library key
  | .graph => s.reportGraph library key
  | .check => s.reportCheck library key

end Session

end ModuleGraph
