import ModuleGraph.Realm

/-!
# Scripts in place of module bodies

A script is what a host runs for the body of a module: a list of actions on the bindings that the
body sees. `Script.executor` runs the script of each module and then gives every exported local that
still has no value the undefined one; modules without a script only do the latter.
-/

namespace ModuleGraph

/-- A value as a script writes it. Each time a function is written it is another one. -/
inductive Literal where
  | undefined
  | null
  | boolean (value : Bool)
  | number (value : Float)
  | string (value : String)
  | function (name : String) (behaviour : Behaviour)
deriving Repr

/-- What a script does. -/
inductive Action where
  | read (name : String)
  | assign (name : String) (value : Literal)
  | copy (origin target : String)
  | call (name : String) (arguments : List Literal)
  | compare (left right : String)
  | throw (message : String)
  | attempt (action : Action)
  | settle
  | about
  | source
  | exports (name : String)
deriving Repr

/-- What scripts log. -/
inductive LogLine where
  | value (value : Value)
  | truth (value : Bool)
  | fault (fault : EvalFault)
  | about (key : ModuleKey) (url : Url)
  | source (text : String)
  | exports (view : NamespaceView)

/-- The host state of scripts: the values of cells, how often each function has been called, how
many functions have been made, and the lines that have been logged. -/
structure Stage where
  cells : Cells
  calls : List (Nat × Nat)
  functions : Nat
  log : List LogLine

namespace Stage

/-- The state before any script has run. -/
def empty : Stage :=
  ⟨[], [], 0, []⟩

end Stage

/-- A step of a script. -/
abbrev ScriptM := ExceptT EvalFault (StateM Stage)

namespace Literal

/-- The value that a module writes. -/
def eval (home : Option ModuleKey) : Literal → StateM Stage Value
  | .undefined => pure .undefined
  | .null => pure .null
  | .boolean b => pure (.boolean b)
  | .number n => pure (.number n)
  | .string s => pure (.string s)
  | .function name behaviour => do
    let stage ← get
    set { stage with functions := stage.functions + 1 }
    return .function ⟨stage.functions, name, behaviour, home⟩

end Literal

namespace Function

/-- Counts a call. -/
def countCall (f : Function) : StateM Stage Nat := do
  let stage ← get
  let n := (stage.calls.lookup f.identity).getD 0 + 1
  set { stage with calls := (f.identity, n) :: stage.calls.filter (·.1 != f.identity) }
  return n

/-- Adds one to the number in a cell; a value of another kind counts as zero. -/
def bumpCell (cell : Cell) : StateM Stage Value := do
  let stage ← get
  let n := ((stage.cells.get? cell).bind Value.number?).getD 0 + 1
  set { stage with cells := stage.cells.set cell (.number n) }
  return .number n

/-- The text with its ASCII letters in upper case, for a string. -/
def upperOf : Option Value → Value
  | some (.string s) => .string (String.ofList (s.toList.map Char.toUpper))
  | _ => .string ""

/-- Calls a function. An error is the message that it throws. -/
def call (instance? : ModuleKey → Option Instance) (f : Function) (arguments : List Value) :
    StateM Stage (Except String Value) := do
  match f.behaviour with
  | .count => return .ok (.number (Float.ofNat (← countCall f)))
  | .upper => return .ok (upperOf arguments.head?)
  | .throw message => return .error message
  | .echo => return .ok (arguments.head?.getD .undefined)
  | .bump name =>
    match ((f.home.bind instance?).bind (·.local? name)) with
    | some cell => return .ok (← bumpCell cell)
    | none => return .error "no cell"
  | .peek name =>
    match f.home.bind instance? with
    | none => return .error "no module"
    | some i =>
      match i.import? name with
      | none => return .error "no import"
      | some binding =>
        match (← get).cells.valueOf? binding with
        | some value => return .ok value
        | none => return .error "uninitialized"

end Function

/-- Calls a value; only functions can be called. -/
def Value.call (instance? : ModuleKey → Option Instance) (value : Value) (arguments : List Value) :
    StateM Stage (Except String Value) :=
  match value with
  | .function f => f.call instance? arguments
  | _ => pure (.error ("TypeError: " ++ value.text ++ " is not a function"))

namespace Execution

/-- Throws in a module. -/
def throwing {α : Type} (x : Execution) (message : String) : ScriptM α :=
  throw (.thrown x.key message)

/-- What a name that the body sees refers to: an import, or else an exported local. -/
def binding? (x : Execution) (name : String) : Option Binding :=
  (x.inst.import? name).or ((x.inst.local? name).map .cell)

/-- The value of a name that the body sees. -/
def read (x : Execution) (name : String) : ScriptM Value := do
  match x.binding? name with
  | none => x.throwing ("ReferenceError: " ++ name ++ " is not defined")
  | some binding =>
    match (← get).cells.valueOf? binding with
    | some value => pure value
    | none => throw (.uninitialized x.key name)

/-- Gives an exported local a value. -/
def assign (x : Execution) (name : String) (value : Value) : ScriptM Unit := do
  match x.inst.import? name, x.inst.local? name with
  | some _, _ => x.throwing "TypeError: Assignment to constant variable."
  | none, some cell => modify fun s => { s with cells := s.cells.set cell value }
  | none, none => x.throwing ("ReferenceError: " ++ name ++ " is not an exported binding")

/-- Calls the value of a name. -/
def call (x : Execution) (name : String) (arguments : List Value) : ScriptM Value := do
  let value ← x.read name
  match ← value.call x.instance? arguments with
  | .ok result => pure result
  | .error message => x.throwing message

/-- Gives every exported local that has no value the undefined one. -/
def settle (x : Execution) (cells : Cells) : Cells :=
  cells.settle x.inst x.body.exportedLocals

end Execution

namespace Action

/-- Logs a line. -/
def log (line : LogLine) : ScriptM Unit :=
  modify fun s => { s with log := s.log ++ [line] }

/-- Runs an action as part of a module's body. -/
def run (x : Execution) : Action → ScriptM Unit
  | .read name => do log (.value (← x.read name))
  | .assign name value => do x.assign name (← value.eval (some x.inst.key))
  | .copy origin target => do x.assign target (← x.read origin)
  | .call name arguments => do
    let arguments ← arguments.mapM fun a => (a.eval (some x.inst.key) : ScriptM Value)
    log (.value (← x.call name arguments))
  | .compare left right => do
    let a ← x.read left
    let b ← x.read right
    log (.truth (a.same b))
  | .throw message => x.throwing message
  | .attempt action => do
    try
      run x action
    catch fault => log (.fault fault)
  | .settle => modify fun s => { s with cells := x.settle s.cells }
  | .about => log (.about x.key x.inst.url)
  | .source => log (.source x.body.residual)
  | .exports name => do
    match ← x.read name with
    | .namespace owner =>
      match x.instance? owner.key with
      | some i => log (.exports (i.view (← get).cells))
      | none => log (.value (.namespace owner))
    | value => log (.value value)

end Action

namespace Script

/-- Runs the actions of a module's script, and settles its exports. -/
def run (actions : List Action) (x : Execution) : ScriptM Unit := do
  actions.forM (Action.run x)
  modify fun s => { s with cells := x.settle s.cells }

/-- Runs the script of each module. -/
def executor (scripts : List (ModuleKey × List Action)) : Executor Stage := fun x stage =>
  (run ((scripts.lookup x.key).getD []) x).run stage

end Script

/-- The executor that runs no code: it settles the exports of each module. -/
def settling : Executor Cells := fun x cells =>
  (.ok (), x.settle cells)

end ModuleGraph
