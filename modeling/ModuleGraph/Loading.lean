import ModuleGraph.Plan

/-!
# Loading

`Catalog.load` loads a module with everything it depends on. After the plan is made, the modules are
walked depth first. Those of an import cycle wait on a stack until the first of them is done and are
loaded together. A fault fails each module on the path to it and then every other module that is
still on the stack, with that fault.
-/

namespace ModuleGraph

/-- The state of a walk over modules: the map, and the modules whose cycle is not finished, the
outermost first. -/
structure Walk where
  map : ModuleMap
  stack : List ModuleKey

/-- A step of the loading walk. -/
abbrev LoadWalk := EStateM (Halt LoadFault) Walk

namespace LoadWalk

/-- Takes a step in the map. -/
def commit (f : ModuleMap → Except Violation ModuleMap) : LoadWalk Unit := do
  match f (← get).map with
  | .ok map => modify fun w => { w with map }
  | .error violation => throw (.violation violation)

/-- A module fails. -/
def fail {α : Type} (key : ModuleKey) (fault : LoadFault) : LoadWalk α := do
  commit (·.markFailed key (.load fault))
  throw (.fault fault)

/-- What is done for a module: a fault on the way makes the module fail, too. -/
def failing {α : Type} (key : ModuleKey) (x : LoadWalk α) : LoadWalk α := do
  try
    x
  catch
    | .fault fault => fail key fault
    | .violation violation => throw (.violation violation)

/-- Why a module may not import another, if it may not: inline modules are values and never imported
by declarations, and of another resource only what is exported along its whole path. -/
def importFault? (map : ModuleMap) (importer target : ModuleKey) : Option UnboundCause :=
  match (map.get? target).bind Entry.declaration with
  | none => none
  | some declaration =>
    if declaration.form? = some .inline then some .inlineModule
    else if !target.sameResource importer && !map.isVisible target then some .notExported
    else none

/-- Refuses an import that is not allowed. -/
def checkImport (importer target : ModuleKey) : LoadWalk Unit := do
  match importFault? (← get).map importer target with
  | none => pure ()
  | some cause =>
    throw (.fault ⟨importer, .resolve (.unbound target.text importer.text cause)⟩)

/-- Loads the modules of the stack from a position on. -/
def finish (plan : Plan) (position : Nat) : LoadWalk Unit := do
  let members := (← get).stack.drop position
  modify fun w => { w with stack := w.stack.take position }
  members.forM fun member => commit (·.markLoaded member (plan.dependencies member))

/-- The lower of two positions, if there is a second one. -/
def lower (position : Nat) : Option Nat → Nat
  | none => position
  | some other => min position other

/-- Walks a module and what it depends on. The answer is the lowest position of a waiting module
that it reaches, unless its own cycle is finished. Each level of the walk has a module of the plan
of its own, so that `depth` need not exceed their number. -/
def visit (plan : Plan) :
    (depth : Nat) → (referrer : Option ModuleKey) → ModuleKey → LoadWalk (Option Nat)
  | 0, _, _ => pure none
  | n + 1, referrer, key => do
    modify fun w => { w with map := w.map.register key }
    let walk ← get
    let entry := walk.map.entry key
    if entry.isLoaded then return none
    match entry.loadFault? with
    | some fault => throw (.fault fault)
    | none =>
      -- an import cycle back into the stack
      if entry.status = .loading then return walk.stack.idxOf? key
      match plan.node? key with
      | none =>
        let referrer := (referrer.map ModuleKey.text).getD ""
        fail key ⟨key, .resolve (.unbound key.text referrer .notDiscovered)⟩
      | some (.failed fault) => fail key fault
      | some (.ready dependencies) =>
        let position := walk.stack.length
        modify fun w => { w with stack := w.stack ++ [key] }
        commit (·.markLoading key)
        -- a fault of a dependency comes back along the whole path that led to it
        let low ← failing key <| dependencies.foldlM (fun low dependency => do
          checkImport key dependency
          return lower low (← visit plan n (some key) dependency)) position
        -- nothing above this module reaches below it, so its cycle is complete
        if low = position then
          finish plan position
          return none
        else return some low

/-- Every module that still waits on the stack fails. Those on the path to the fault have failed
before. -/
def abandon (fault : LoadFault) : LoadWalk Unit := do
  let members := (← get).stack
  members.forM fun member => do
    if (← get).map.status? member = some .loading then
      commit (·.markFailed member (.load fault))

/-- Walks a module, and settles all modules of the walk. -/
def run (plan : Plan) (key : ModuleKey) : LoadWalk Unit := do
  try
    discard (visit plan (plan.length + 1) none key)
  catch
    | .fault fault =>
      abandon fault
      throw (.fault fault)
    | .violation violation => throw (.violation violation)

end LoadWalk

/-- Loads a module. A module that has been loaded, or has failed to load, stays as it is. -/
def Catalog.load (importMap : ImportMap) (library : Library) (key : ModuleKey) :
    EStateM (Halt LoadFault) Catalog Unit := fun catalog =>
  let catalog := { catalog with map := catalog.map.register key }
  let entry := catalog.map.entry key
  if entry.isLoaded then .ok () catalog
  else
    match entry.loadFault? with
    | some fault => .error (.fault fault) catalog
    | none =>
      let (catalog, plan) := discover importMap library catalog key
      match LoadWalk.run plan key ⟨catalog.map, []⟩ with
      | .ok _ walk => .ok () { catalog with map := walk.map }
      | .error halt walk => .error halt { catalog with map := walk.map }

end ModuleGraph
