/-!
# Arguments of the command line

`Request.ofArguments` reads the arguments of a call: options, a command, and the entry module that
it is for. Options may stand before or behind the command, and those behind it win. It stops at the
first argument that asks for help or the version, or that cannot be read.
-/

namespace ModuleGraph.CommandLine

/-- What can be done with an entry module. -/
inductive Command where
  | run
  | graph
  | check
deriving DecidableEq, Repr

namespace Command

/-- All commands. -/
def all : List Command :=
  [.run, .graph, .check]

/-- The name of a command. -/
def name : Command → String
  | .run => "run"
  | .graph => "graph"
  | .check => "check"

/-- The command of a name. -/
def ofName? (name : String) : Option Command :=
  all.find? (·.name == name)

end Command

/-- An option that takes a value. -/
inductive ValueOption where
  | importMap
  | config
deriving DecidableEq, Repr

/-- An option with what stands for its value. -/
def ValueOption.text : ValueOption → String
  | .importMap => "--import-map <IMPORT_MAP>"
  | .config => "--config <CONFIG>"

/-- The options of a call. -/
structure Options where
  importMap : Option String
  config : Option String
  allowRemote : Bool
  verbose : Bool
deriving DecidableEq, Repr

namespace Options

/-- No options. -/
def empty : Options :=
  ⟨none, none, false, false⟩

/-- The value of an option. -/
def value? (o : Options) : ValueOption → Option String
  | .importMap => o.importMap
  | .config => o.config

/-- The options with a value for one of them. -/
def setValue (o : Options) (option : ValueOption) (value : String) : Options :=
  match option with
  | .importMap => { o with importMap := some value }
  | .config => { o with config := some value }

/-- Options behind a command together with those before it. -/
def combine (inner outer : Options) : Options :=
  ⟨inner.importMap.or outer.importMap, inner.config.or outer.config,
    inner.allowRemote || outer.allowRemote, inner.verbose || outer.verbose⟩

end Options

/-- What help is about. -/
inductive Topic where
  | program
  | command (command : Command)
  | help
deriving DecidableEq, Repr

/-- A call of a command. -/
structure Invocation where
  command : Command
  entry : String
  options : Options
deriving DecidableEq, Repr

/-- What a call asks for. -/
inductive Request where
  | version
  | help (topic : Topic)
  | invoke (invocation : Invocation)
deriving DecidableEq, Repr

/-- Why arguments cannot be read. -/
inductive UsageFault where
  | unexpected (argument : String)
  | missingValue (option : ValueOption)
  | repeated (argument : String)
  | unknownCommand (name : String)
  | missingCommand
  | missingEntry
deriving DecidableEq, Repr

/-- The end of reading: an answer that needs no more arguments, or a fault. -/
inductive Stop where
  | request (request : Request)
  | fault (fault : UsageFault)
deriving DecidableEq, Repr

/-- The form of an argument. -/
inductive Form where
  | terminator
  | long (name : String) (value : Option String)
  | short (letters : List Char)
  | plain
deriving DecidableEq, Repr

/-- The form of an argument: it is an option if it begins with a hyphen and goes on. -/
def Form.ofArgument (argument : String) : Form :=
  match argument.toList with
  | ['-', '-'] => .terminator
  | '-' :: '-' :: cs =>
    let name := String.ofList (cs.takeWhile (· != '='))
    match cs.dropWhile (· != '=') with
    | _ :: value => .long name (some (String.ofList value))
    | [] => .long name none
  | '-' :: c :: cs => .short (c :: cs)
  | _ => .plain

/-- How far arguments have been read. `outer` holds the options before the command, `awaiting` an
option whose value comes next, `topic` what help has been asked about by name, and after `literal`
no argument is an option. -/
structure Reading where
  options : Options
  outer : Options
  awaiting : Option ValueOption
  command : Option Command
  entry : Option String
  topic : Option Topic
  literal : Bool

namespace Reading

/-- The start of reading. -/
def start : Reading :=
  ⟨Options.empty, Options.empty, none, none, none, none, false⟩

/-- What help is about at this point. -/
def place (r : Reading) : Topic :=
  match r.command with
  | some command => .command command
  | none => .program

/-- Takes the value of an option. -/
def takeValue (r : Reading) (option : ValueOption) (value : String) : Except Stop Reading :=
  if value = "" then .error (.fault (.missingValue option))
  else if (r.options.value? option).isSome then .error (.fault (.repeated option.text))
  else .ok { r with options := r.options.setValue option value, awaiting := none }

/-- Takes the flag that allows remote modules. -/
def takeAllowRemote (r : Reading) : Except Stop Reading :=
  if r.options.allowRemote then .error (.fault (.repeated "--allow-remote"))
  else .ok { r with options := { r.options with allowRemote := true } }

/-- Takes the flag for verbose logging. -/
def takeVerbose (r : Reading) : Except Stop Reading :=
  if r.options.verbose then .error (.fault (.repeated "--verbose"))
  else .ok { r with options := { r.options with verbose := true } }

/-- Takes an option that takes a value, which may be attached. -/
def takeOption (r : Reading) (option : ValueOption) : Option String → Except Stop Reading
  | some value => r.takeValue option value
  | none => .ok { r with awaiting := some option }

/-- Takes a long option. The version is asked for only before a command. -/
def takeLong (r : Reading) (name : String) (value : Option String) : Except Stop Reading :=
  match name, value with
  | "import-map", _ => r.takeOption .importMap value
  | "config", _ => r.takeOption .config value
  | "allow-remote", none => r.takeAllowRemote
  | "verbose", none => r.takeVerbose
  | "help", none => .error (.request (.help r.place))
  | "version", none =>
    if r.command.isNone then .error (.request .version)
    else .error (.fault (.unexpected "--version"))
  | _, _ => .error (.fault (.unexpected ("--" ++ name)))

/-- Takes one of the letters behind a single hyphen. -/
def takeLetter (r : Reading) (letter : Char) : Except Stop Reading :=
  match letter with
  | 'v' => r.takeVerbose
  | 'h' => .error (.request (.help r.place))
  | 'V' =>
    if r.command.isNone then .error (.request .version) else .error (.fault (.unexpected "-V"))
  | _ => .error (.fault (.unexpected (String.ofList ['-', letter])))

/-- Takes a word that is no option: the name of a command, or else its entry. -/
def takeWord (r : Reading) (word : String) : Except Stop Reading :=
  match r.command, r.entry with
  | none, _ =>
    if r.literal then .error (.fault (.unexpected word))
    else
      match Command.ofName? word with
      | some command =>
        .ok { r with command := some command, outer := r.options, options := Options.empty }
      | none =>
        if word = "help" then .ok { r with topic := some .program }
        else .error (.fault (.unknownCommand word))
  | some _, none => .ok { r with entry := some word }
  | some _, some _ => .error (.fault (.unexpected word))

/-- Takes a word behind the command that asks for help. -/
def takeTopic (r : Reading) (topic : Topic) (word : String) : Except Stop Reading :=
  match topic, Command.ofName? word with
  | .program, some command => .ok { r with topic := some (.command command) }
  | .program, none =>
    if word = "help" then .ok { r with topic := some .help }
    else .error (.fault (.unknownCommand word))
  | _, _ => .error (.fault (.unknownCommand word))

/-- Takes an argument. -/
def take (r : Reading) (argument : String) : Except Stop Reading :=
  match r.topic with
  | some topic => r.takeTopic topic argument
  | none =>
    if r.literal then r.takeWord argument
    else
      match Form.ofArgument argument, r.awaiting with
      | .plain, some option => r.takeValue option argument
      | _, some option => .error (.fault (.missingValue option))
      | .plain, none => r.takeWord argument
      | .terminator, none => .ok { r with literal := true }
      | .long name value, none => r.takeLong name value
      | .short letters, none => letters.foldlM takeLetter r

/-- What has been asked for when all arguments are read. -/
def finish (r : Reading) : Stop :=
  match r.topic, r.awaiting, r.command, r.entry with
  | some topic, _, _, _ => .request (.help topic)
  | none, some option, _, _ => .fault (.missingValue option)
  | none, none, none, _ => .fault .missingCommand
  | none, none, some _, none => .fault .missingEntry
  | none, none, some command, some entry =>
    .request (.invoke ⟨command, entry, r.options.combine r.outer⟩)

end Reading

/-- Reads the arguments of a call. -/
def Request.ofArguments (arguments : List String) : Except UsageFault Request :=
  let stop :=
    match arguments.foldlM Reading.take Reading.start with
    | .ok reading => reading.finish
    | .error stop => stop
  match stop with
  | .request request => .ok request
  | .fault fault => .error fault

end ModuleGraph.CommandLine
