import ModuleGraph.CommandLine.Help
import ModuleGraph.CommandLine.Report

/-!
# The command line

A call is answered in steps that read no files themselves: its arguments are read, then the settings
of its session, then the key of its entry, and its command runs with the resources that are known.
`Call.ofInvocation` takes the first steps and `Call.report` the last.
-/

namespace ModuleGraph.CommandLine

open Terminal

/-- What a call writes and how it ends. -/
structure Outcome where
  output : String
  errors : String
  exitCode : UInt32
deriving DecidableEq, Repr

namespace Outcome

/-- The call succeeds. -/
def success (output : String) : Outcome :=
  ⟨output, "", 0⟩

/-- The call fails after it has written something. -/
def failure (output message : String) : Outcome :=
  ⟨output, Style.bold.paint (Style.red.paint "Error") ++ ": " ++ message ++ "\n", 1⟩

/-- The arguments cannot be read. -/
def usage (fault : UsageFault) : Outcome :=
  ⟨"", "error: " ++ fault.message ++ "\n", 2⟩

/-- The outcome of a report. -/
def ofReport (r : Report) : Outcome :=
  match r.failure with
  | none => success r.output
  | some message => failure r.output message

end Outcome

/-- Whether a text is written as a URL with an authority. -/
def isUrlText : List Char → Bool
  | [] => false
  | c :: cs => [':', '/', '/'].isPrefixOf (c :: cs) || isUrlText cs

/-- A URL with a fragment that is given as plain text. -/
def withFragment (url : Url) (text : List Char) : Url :=
  let kept := text.filter fun c => c != '\t' && c != '\n' && c != '\r'
  { url with fragment := some (String.ofList (Percent.encode Percent.fragmentSet kept)) }

/-- The key of an entry: a URL, or the path of a file with perhaps a fragment behind it. -/
def entryKey (directory entry : String) : Except ResolveFault ModuleKey :=
  let cs := entry.toList
  if isUrlText cs then keyOf entry
  else
    let path := String.ofList (cs.takeWhile (· != '#'))
    let url := Url.ofFilePath (FilePath.join directory path)
    match cs.dropWhile (· != '#') with
    | _ :: fragment => keyOf (withFragment url fragment).text
    | [] => keyOf url.text

/-- A call whose session is open and whose entry is known. -/
structure Call where
  session : Session
  command : Command
  key : ModuleKey

/-- Sets what the options of a call set. -/
def Options.apply (o : Options) : SettingsM Unit := do
  if let some path := o.importMap then
    Settings.put Setting.importMap.key path
  if o.allowRemote then
    Settings.put Setting.allowRemote.key "true"

/-- The paths at which settings of a call may be. -/
def Invocation.settingsPaths (i : Invocation) (environment : Settings.Environment) : List String :=
  (Settings.userPath? environment).toList ++ [i.options.config.getD Settings.projectPath]

/-- The settings of a call. -/
def Invocation.settings (i : Invocation) (read : ReadFile) (environment : Settings.Environment) :
    Except SettingsFault Settings := do
  let settings ← Settings.load read environment i.options.config
  match i.options.apply.run settings with
  | .ok _ settings => .ok settings
  | .error fault _ => .error fault

/-- The call of an invocation. A failure is told by its message. -/
def Call.ofInvocation (i : Invocation) (read : ReadFile) (environment : Settings.Environment)
    (directory : String) : Except String Call := do
  let settings ← (i.settings read environment).mapError SettingsFault.message
  let key ← (entryKey directory i.entry).mapError ResolveFault.message
  let session ← (Session.ofSettings read directory settings).mapError SettingsFault.message
  return ⟨session, i.command, key⟩

/-- Runs the command of a call with the resources that are known. -/
def Call.report (c : Call) (known : List (Url × FetchAnswer)) : Report :=
  c.session.report (Library.ofAnswers known) c.key c.command

end ModuleGraph.CommandLine
