import ModuleGraph.CommandLine

/-!
# The program

Reads files and writes the outcome of a call. All decisions are those of the command line's modules:
here the files that they ask for are read, and handed over.
-/

namespace ModuleGraph.Program

open CommandLine

/-- Files that have been read, with the answers. -/
abbrev Files := List (String × Except ReadFault String)

/-- Looks up a file that has been read. -/
def Files.read (files : Files) : ReadFile := fun path =>
  (files.lookup path).getD (.error .missing)

/-- The fault that an error of the file system stands for. -/
def faultOf : IO.Error → ReadFault
  | .noFileOrDirectory .. => .missing
  | .inappropriateType _ 20 _ => .notDirectory
  | .inappropriateType _ 21 _ => .isDirectory
  | .invalidArgument _ 36 _ => .nameTooLong
  | .permissionDenied _ code _ => .other ("Permission denied (os error " ++ toString code ++ ")")
  | e => .other (toString e)

/-- Reads a file. -/
def readPath (path : String) : IO (Except ReadFault String) := do
  match ← (IO.FS.readBinFile path).toBaseIO with
  | .error e => return .error (faultOf e)
  | .ok bytes =>
    match String.fromUTF8? bytes with
    | some text => return .ok text
    | none => return .error (.other "stream did not contain valid UTF-8")

/-- Reads the files that have not been read. -/
def Files.extend (files : Files) (paths : List String) : IO Files :=
  paths.foldlM (fun files path => do
    if (files.lookup path).isSome then return files
    else return (path, ← readPath path) :: files) files

/-- The variables that texts in a block assign, with null characters behind them. -/
def assignments (block : String) : Settings.Environment :=
  (Text.splitWhere (· == '\x00') block.toList).filterMap fun cs =>
    match cs.dropWhile (· != '=') with
    | _ :: value => some (String.ofList (cs.takeWhile (· != '=')), String.ofList value)
    | [] => none

/-- The variables of the environment. -/
def environment : IO Settings.Environment := do
  match ← readPath "/proc/self/environ" with
  | .ok block => return assignments block
  | .error _ => return []

/-- What is answered for URLs of other machines, as there is no network here. -/
def remote (url : Url) : FetchAnswer :=
  .error (.network url.text "no network")

/-- Runs a call, with more resources each time, until all that it asks for are known. -/
partial def complete (call : Call) (files : Files) (known : List (Url × FetchAnswer)) :
    IO Outcome := do
  let report := call.report known
  match report.realm.unknown known with
  | [] => return .ofReport report
  | urls =>
    let files ← files.extend (urls.filterMap Url.filePath?)
    let answers := urls.map fun url => (url, call.session.fetch files.read remote url)
    complete call files (known ++ answers)

/-- The outcome of a call of a command. -/
def invoke (invocation : Invocation) : IO Outcome := do
  let environment ← environment
  let directory := (← IO.currentDir).toString
  let files ← Files.extend [] (invocation.settingsPaths environment)
  match invocation.settings files.read environment with
  | .error fault => return .failure "" fault.message
  | .ok settings =>
    let files ← files.extend settings.importMap.toList
    match Call.ofInvocation invocation files.read environment directory with
    | .error message => return .failure "" message
    | .ok call => complete call files []

/-- The outcome of a call. -/
def outcome (arguments : List String) : IO Outcome := do
  match Request.ofArguments arguments with
  | .error fault => return .usage fault
  | .ok .version => return .success versionText
  | .ok (.help topic) => return .success topic.text
  | .ok (.invoke invocation) => invoke invocation

end ModuleGraph.Program

/-- Answers a call of the program. -/
def main (arguments : List String) : IO UInt32 := do
  let outcome ← ModuleGraph.Program.outcome arguments
  IO.print outcome.output
  IO.eprint outcome.errors
  return outcome.exitCode
