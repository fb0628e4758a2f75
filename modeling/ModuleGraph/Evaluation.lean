import ModuleGraph.Loading

/-!
# Evaluation

`Evaluator.run` evaluates an instantiated module after everything it depends on. A module that is
met again while it waits is passed over, so that of an import cycle the module that was entered
first runs last, and the cycle counts as evaluated when it has run. What running a body means is up
to an `Executor`.
-/

namespace ModuleGraph

/-- What an executor may see of the module that it runs. -/
structure Execution where
  key : ModuleKey
  inst : Instance
  body : Body
  map : ModuleMap

/-- The instance of a module. -/
def Execution.instance? (x : Execution) (key : ModuleKey) : Option Instance :=
  x.map.instance? key

/-- Runs the body of a module on the state of its host. -/
abbrev Executor (σ : Type) := Execution → σ → Except EvalFault Unit × σ

/-- The state of an evaluation. `ran` holds the modules whose bodies have been run, in their order;
those of a cycle that is not finished are on the stack, the outermost first. -/
structure Evaluator (σ : Type) where
  map : ModuleMap
  stack : List ModuleKey
  ran : List ModuleKey
  host : σ

/-- A step of an evaluation. -/
abbrev EvalM (σ : Type) := EStateM (Halt EvalFault) (Evaluator σ)

namespace EvalM

variable {σ : Type}

/-- Takes a step in the map. -/
def commit (f : ModuleMap → Except Violation ModuleMap) : EvalM σ Unit := do
  match f (← get).map with
  | .ok map => modify fun e => { e with map }
  | .error violation => throw (.violation violation)

/-- Why a module is not to be evaluated, unless it is instantiated. -/
def faultOf (entry : Entry) : EvalFault :=
  match entry.failure with
  | some (.eval fault) => fault
  | _ => .notInstantiated entry.key

/-- Runs the body of a module. -/
def runBody (execute : Executor σ) (entry : Entry) : EvalM σ Unit := do
  match entry.instance?, entry.body? with
  | some inst, some body =>
    let e ← get
    let (result, host) := execute ⟨entry.key, inst, body, e.map⟩ e.host
    set { e with ran := e.ran ++ [entry.key], host }
    match result with
    | .ok _ => pure ()
    | .error fault => throw (.fault fault)
  | _, _ => throw (.fault (.notInstantiated entry.key))

/-- The modules of the stack from a position on are evaluated. -/
def finish (position : Nat) : EvalM σ Unit := do
  let members := (← get).stack.drop position
  modify fun e => { e with stack := e.stack.take position }
  members.forM fun member => commit (·.markEvaluated member)

/-- Evaluates what a module depends on, and then the module. The answer is the lowest position of a
waiting module that it reaches, unless its own cycle is finished. Each level of the walk has a
module of its own, so that `depth` need not exceed their number. -/
def visit (execute : Executor σ) : (depth : Nat) → ModuleKey → EvalM σ (Option Nat)
  | 0, _ => pure none
  | n + 1, key => do
    let e ← get
    match e.map.get? key with
    | none => throw (.fault (.notInstantiated key))
    | some entry =>
      match entry.status with
      | .evaluated => return none
      | .instantiated =>
        match e.stack.idxOf? key with
        -- an import cycle back into the stack: the module is skipped
        | some position => return some position
        | none =>
          let position := e.stack.length
          set { e with stack := e.stack ++ [key] }
          let low ← entry.dependencies.foldlM (fun low dependency => do
            return LoadWalk.lower low (← visit execute n dependency)) position
          runBody execute entry
          -- nothing above this module reaches below it, so its cycle is complete
          if low = position then
            finish position
            return none
          else return some low
      | _ => throw (.fault (faultOf entry))

/-- Every module that still waits on the stack fails. -/
def abandon (fault : EvalFault) : EvalM σ Unit := do
  let members := (← get).stack
  members.forM fun member => do
    if (← get).map.status? member = some .instantiated then
      commit (·.markFailed member (.eval fault))

/-- Evaluates a module. -/
def run (execute : Executor σ) (key : ModuleKey) : EvalM σ Unit := do
  try
    discard (visit execute ((← get).map.entries.length + 1) key)
  catch
    | .fault fault =>
      abandon fault
      throw (.fault fault)
    | .violation violation => throw (.violation violation)

end EvalM

end ModuleGraph
