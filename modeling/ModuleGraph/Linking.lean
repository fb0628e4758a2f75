import ModuleGraph.Exports

/-!
# Linking

`ModuleMap.instantiate` gives a loaded module and everything it depends on their instances, with all
imports bound. Either all modules that have no instance yet get one, or the module at fault and
those that depend on it fail and the others stay loaded.
-/

namespace ModuleGraph

/-! ## Dependence -/

/-- Answers that have been found to the question whether a module depends on the culprit. -/
abbrev Findings := List (ModuleKey × Bool)

/-- Whether a module is the culprit or depends on it through candidates. A negative answer that was
found while other modules were being asked may be due to them and is not kept. -/
def ModuleMap.reaches (map : ModuleMap) (candidates : List ModuleKey) (culprit : ModuleKey) :
    (depth : Nat) → (path : List ModuleKey) → ModuleKey → StateM Findings Bool
  | 0, _, _ => pure false
  | n + 1, path, key => do
    if key = culprit then return true
    match (← get).lookup key with
    | some known => return known
    | none =>
      if key ∉ candidates ∨ key ∈ path then return false
      let found ← (map.entry key).dependencies.anyM (reaches map candidates culprit n (key :: path))
      if found ∨ path.isEmpty then modify ((key, found) :: ·)
      return found

/-- The candidates that are the culprit or depend on it. -/
def ModuleMap.dependents (map : ModuleMap) (culprit : ModuleKey) (candidates : List ModuleKey) :
    List ModuleKey :=
  ((candidates.filterM fun key =>
    map.reaches candidates culprit (candidates.length + 1) [] key).run []).1

/-! ## Collecting -/

/-- Modules that have been met, and those of them that are settled, each behind all that it depends
on. -/
structure Collection where
  visited : List ModuleKey
  order : List ModuleKey

/-- Whether a module can be linked to: whether it has an instance or is ready to get one. -/
def ModuleMap.linkFault? (map : ModuleMap) (key : ModuleKey) : Option LinkFault :=
  match map.get? key with
  | none => some (.notLoaded key)
  | some entry =>
    if entry.instance?.isSome then none
    else
      match entry.failure with
      | some (.link fault) => some fault
      | some _ => some (.notLoaded key)
      | none => if entry.isLoaded then none else some (.notLoaded key)

/-- Collects a module and what it depends on, as far as there is no instance yet. Each level has a
module of its own, so that `depth` need not exceed their number. -/
def ModuleMap.collect (map : ModuleMap) :
    (depth : Nat) → ModuleKey → EStateM (ModuleKey × LinkFault) Collection Unit
  | 0, _ => pure ()
  | n + 1, key => do
    if key ∈ (← get).visited then return
    modify fun c => { c with visited := c.visited ++ [key] }
    (map.entry key).dependencies.forM fun dependency => do
      match map.linkFault? dependency with
      | some fault => throw (dependency, fault)
      | none =>
        if (map.instance? dependency).isNone then collect map n dependency
    modify fun c => { c with order := c.order ++ [key] }

/-! ## Binding -/

/-- The modules during linking: those of the map, and the instances in the making. -/
structure Linker where
  map : ModuleMap
  fresh : List Instance

namespace Linker

/-- The instance of a module. -/
def instance? (l : Linker) (key : ModuleKey) : Option Instance :=
  (l.fresh.find? (·.key == key)).or (l.map.instance? key)

/-- The instance of a module that has to have one. -/
def instanceOf (l : Linker) (key : ModuleKey) : Except LinkFault Instance :=
  match l.instance? key with
  | some i => .ok i
  | none => .error (.notLoaded key)

/-- What the target of an export name refers to. -/
def bind (l : Linker) (importer : ModuleKey) : ExportTarget → Except LinkFault Binding
  | .namespace key => (l.instanceOf key).map fun i => .namespace i.id
  | .binding key name =>
    match l.instanceOf key with
    | .error fault => .error fault
    | .ok i =>
      match i.local? name with
      | some cell => .ok (.cell cell)
      | none => .error (.unresolved .missing importer key name)

/-- What a name of a module refers to for its importer. -/
def bindImport (l : Linker) (importer target : ModuleKey) (name : String) :
    Except LinkFault Binding :=
  match l.map.resolveExport target name with
  | .ok found => l.bind importer found
  | .error cause => .error (.unresolved cause importer target name)

/-- What a request of a module provides. -/
def bindRequest (l : Linker) (key : ModuleKey) (view : LinkView) (request : Specifier)
    (importName : ImportName) : Except LinkFault Binding :=
  match view.dependency? request with
  | none => .error (.notLoaded key)
  | some target =>
    match importName with
    | .namespace => (l.instanceOf target).map fun i => .namespace i.id
    | .name name => l.bindImport key target name

/-- The imports of a module. -/
def imports (l : Linker) (key : ModuleKey) (view : LinkView) :
    Except LinkFault (List (String × Binding)) :=
  view.body.imports.mapM fun i => do
    .ok (i.localName, ← l.bindRequest key view i.request i.importName)

/-- The re-exports by name have to have a target. -/
def checkReexports (l : Linker) (key : ModuleKey) (view : LinkView) : Except LinkFault Unit :=
  view.body.indirectExports.forM fun e =>
    match e.importName with
    | .namespace => .ok ()
    | .name name => do
      discard (l.bindRequest key view e.request (.name name))

/-- The exports of a module in the order of their names: all names that it offers and that have a
single target. -/
def exports (l : Linker) (key : ModuleKey) : Except LinkFault (List (String × Binding)) := do
  let found := (l.map.exportedNames key).filterMap fun name =>
    (l.map.resolveExport key name).toOption.map fun target => (name, target)
  let bound ← found.mapM fun f => do .ok (f.1, ← l.bind key f.2)
  .ok (bound.mergeSort fun a b => a.1 ≤ b.1)

/-- Links an instance. -/
def link (l : Linker) (i : Instance) : Except LinkFault Instance :=
  match l.map.linkView? i.key with
  | none => .error (.notLoaded i.key)
  | some view => do
    let imports ← l.imports i.key view
    l.checkReexports i.key view
    let exports ← l.exports i.key
    .ok { i with imports, exports }

end Linker

/-! ## Instantiation -/

/-- A step of instantiation. -/
abbrev LinkM := EStateM (Halt LinkFault) ModuleMap

namespace LinkM

/-- Takes a step in the map. -/
def commit (f : ModuleMap → Except Violation ModuleMap) : LinkM Unit := do
  match f (← get) with
  | .ok map => set map
  | .error violation => throw (.violation violation)

/-- The candidates that are the culprit or depend on it fail, unless they have failed before. -/
def failDependents {α : Type} (culprit : ModuleKey) (candidates : List ModuleKey)
    (fault : LinkFault) : LinkM α := do
  ((← get).dependents culprit candidates).forM fun key => do
    if (← get).status? key ≠ some .failed then commit (·.markFailed key (.link fault))
  throw (.fault fault)

/-- The unlinked instances of modules. -/
def prepare (round : Nat) (keys : List ModuleKey) : LinkM (List Instance) := do
  let map ← get
  keys.mapM fun key =>
    match (map.entry key).body? with
    | some body => pure (Instance.ofBody round key body)
    | none => throw (.fault (.notLoaded key))

/-- Links instances one after the other. -/
def linkAll (candidates : List ModuleKey) (fresh : List Instance) : LinkM (List Instance) := do
  let linker : Linker := ⟨← get, fresh⟩
  fresh.mapM fun i =>
    match linker.link i with
    | .ok linked => pure linked
    -- nothing has been committed yet, so only failures remain to be recorded
    | .error fault => failDependents i.key candidates fault

/-- Instantiates a module that is ready for it. -/
def instantiate (round : Nat) (key : ModuleKey) : LinkM Instance := do
  let map ← get
  match map.collect (map.entries.length + 1) key ⟨[], []⟩ with
  | .error (culprit, fault) collection => failDependents culprit collection.visited fault
  | .ok _ collection =>
    let fresh ← prepare round collection.order
    let linked ← linkAll collection.visited fresh
    linked.forM fun i => commit (·.markInstantiated i.key i)
    match linked.find? (·.key == key) with
    | some i => pure i
    | none => throw (.fault (.notLoaded key))

end LinkM

/-- Instantiates a loaded module and what it depends on. The instances that are made in different
rounds are different ones. -/
def ModuleMap.instantiate (round : Nat) (key : ModuleKey) : LinkM Instance := do
  let map ← get
  match map.linkFault? key with
  | some fault => throw (.fault fault)
  | none =>
    match map.instance? key with
    | some i => pure i
    | none => LinkM.instantiate round key

end ModuleGraph
