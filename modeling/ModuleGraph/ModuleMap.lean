import ModuleGraph.Failure
import ModuleGraph.Instance

/-!
# The module map

The modules that are known, each with what is known of it. A module is registered, loaded with its
dependencies, instantiated and evaluated, in this order, and may fail at any time before the end. An
entry is never replaced, and what an entry has reached is never taken back.

Each step says which module it is about and what it expects of it; a step that is not possible is a
`Violation` and changes nothing.
-/

namespace ModuleGraph

/-- Where a module stands. -/
inductive Status where
  | registered
  | loading
  | loaded
  | instantiated
  | evaluated
  | failed
deriving DecidableEq, Repr

/-- The name of a status. -/
def Status.text : Status → String
  | .registered => "registered"
  | .loading => "loading"
  | .loaded => "loaded"
  | .instantiated => "instantiated"
  | .evaluated => "evaluated"
  | .failed => "failed"

/-- The source behind a module: the top-level module of a resource, or a fragment. -/
inductive Declaration where
  | module (body : Body)
  | fragment (fragment : Fragment)
deriving DecidableEq, Repr

namespace Declaration

/-- The body. -/
def body : Declaration → Body
  | .module b => b
  | .fragment f => f.body

/-- Whether the declaration is marked as exported. Top-level modules always are. -/
def isExported : Declaration → Bool
  | .module _ => true
  | .fragment f => f.exported

/-- The form of a fragment. -/
def form? : Declaration → Option FragmentForm
  | .module _ => none
  | .fragment f => some f.form

end Declaration

/-- How far a module has got, with what it has gained on the way. -/
inductive Progress where
  | registered
  | loading
  | loaded (dependencies : List ModuleKey)
  | instantiated (dependencies : List ModuleKey) (inst : Instance)
  | evaluated (dependencies : List ModuleKey) (inst : Instance)
deriving DecidableEq, Repr

namespace Progress

/-- The status of a module that has not failed. -/
def status : Progress → Status
  | .registered => .registered
  | .loading => .loading
  | .loaded _ => .loaded
  | .instantiated .. => .instantiated
  | .evaluated .. => .evaluated

/-- The dependencies, in the order of the body's requests, once they are loaded. -/
def dependencies? : Progress → Option (List ModuleKey)
  | .registered | .loading => none
  | .loaded dependencies | .instantiated dependencies _ | .evaluated dependencies _ =>
    some dependencies

/-- The instance, once there is one. -/
def instance? : Progress → Option Instance
  | .registered | .loading | .loaded _ => none
  | .instantiated _ i | .evaluated _ i => some i

end Progress

/-- What is known of one module. A module that failed keeps the progress it had made. -/
structure Entry where
  key : ModuleKey
  declaration : Option Declaration
  progress : Progress
  failure : Option ModuleFailure
deriving DecidableEq, Repr

namespace Entry

/-- The entry of a module of which nothing is known. -/
def ofKey (key : ModuleKey) : Entry :=
  ⟨key, none, .registered, none⟩

/-- Where the module stands. -/
def status (e : Entry) : Status :=
  if e.failure.isSome then .failed else e.progress.status

/-- Whether the dependencies have been loaded. -/
def isLoaded (e : Entry) : Bool :=
  e.progress.dependencies?.isSome

/-- The dependencies; none until they are loaded. -/
def dependencies (e : Entry) : List ModuleKey :=
  e.progress.dependencies?.getD []

/-- The instance. -/
def instance? (e : Entry) : Option Instance :=
  e.progress.instance?

/-- The body. -/
def body? (e : Entry) : Option Body :=
  e.declaration.map Declaration.body

/-- Whether there is a declaration that is marked as exported. -/
def isExported (e : Entry) : Bool :=
  e.declaration.any Declaration.isExported

/-- The fault of a module that failed to load. -/
def loadFault? (e : Entry) : Option LoadFault :=
  match e.failure with
  | some (.load fault) => some fault
  | _ => none

/-- The entry with its declaration; the first one stays. -/
def attach (e : Entry) (declaration : Declaration) : Entry :=
  { e with declaration := e.declaration.or (some declaration) }

end Entry

/-- A step that a module cannot take. -/
inductive Violation where
  | unknown (key : ModuleKey)
  | illegalStep (key : ModuleKey) (next : Status)
  | cannotFail (key : ModuleKey) (status : Status)
deriving DecidableEq, Repr

/-- How a call ends early: by a fault of its own kind, or because a module cannot take a step. -/
inductive Halt (φ : Type) where
  | fault (fault : φ)
  | violation (violation : Violation)
deriving DecidableEq, Repr

/-- The message of a violation. -/
def Violation.message : Violation → String
  | .unknown key => "no module map entry for " ++ key.text
  | .illegalStep key next => key.text ++ ": illegal transition to " ++ next.text
  | .cannotFail key standing => key.text ++ ": cannot fail a module that is " ++ standing.text

/-- The known modules, in the order in which they became known. -/
structure ModuleMap where
  entries : List Entry
deriving DecidableEq, Repr

namespace ModuleMap

/-- The map of no modules. -/
def empty : ModuleMap :=
  ⟨[]⟩

/-- The entry of a key. -/
def get? (map : ModuleMap) (key : ModuleKey) : Option Entry :=
  map.entries.find? (·.key == key)

/-- The map with an entry for a key; an entry that is there stays. -/
def register (map : ModuleMap) (key : ModuleKey) : ModuleMap :=
  if (map.get? key).isSome then map else ⟨map.entries ++ [Entry.ofKey key]⟩

/-- The entry of a key, or that of a module of which nothing is known. -/
def entry (map : ModuleMap) (key : ModuleKey) : Entry :=
  (map.get? key).getD (Entry.ofKey key)

/-- Changes the entry of a key. -/
def update (map : ModuleMap) (key : ModuleKey) (f : Entry → Entry) : ModuleMap :=
  ⟨map.entries.map fun e => if e.key == key then f e else e⟩

/-- Where a module stands. -/
def status? (map : ModuleMap) (key : ModuleKey) : Option Status :=
  (map.get? key).map Entry.status

/-- Whether a module is known and its dependencies have been loaded. -/
def isLoaded (map : ModuleMap) (key : ModuleKey) : Bool :=
  (map.get? key).any Entry.isLoaded

/-- Whether a module is known and marked as exported. -/
def isExported (map : ModuleMap) (key : ModuleKey) : Bool :=
  (map.get? key).any Entry.isExported

/-- Whether a module of another resource may import the key: each fragment on its path is marked as
exported. -/
def isVisible (map : ModuleMap) (key : ModuleKey) : Bool :=
  key.ancestry.all map.isExported

/-- The instance of a module. -/
def instance? (map : ModuleMap) (key : ModuleKey) : Option Instance :=
  (map.get? key).bind Entry.instance?

/-- All entries in the order of their keys. -/
def sorted (map : ModuleMap) : List Entry :=
  map.entries.mergeSort fun a b => (a.key.compare b.key).isLE

/-- Registers a key with its declaration. -/
def declare (map : ModuleMap) (key : ModuleKey) (declaration : Declaration) : ModuleMap :=
  (map.register key).update key (Entry.attach · declaration)

/-! ## Steps -/

/-- Takes a step with the entry of a key. -/
def step (map : ModuleMap) (key : ModuleKey) (f : Entry → Except Violation Entry) :
    Except Violation ModuleMap :=
  match map.get? key with
  | none => .error (.unknown key)
  | some e => (f e).map fun e => map.update key fun _ => e

/-- Takes an entry that has not failed to the progress that follows its own. -/
def advance (next : Status) (f : Progress → Option Progress) (e : Entry) :
    Except Violation Entry :=
  match e.failure, f e.progress with
  | none, some progress => .ok { e with progress }
  | _, _ => .error (.illegalStep e.key next)

/-- A registered module starts to load. -/
def markLoading (map : ModuleMap) (key : ModuleKey) : Except Violation ModuleMap :=
  map.step key <| advance .loading fun
    | .registered => some .loading
    | _ => none

/-- A loading module gets its dependencies. -/
def markLoaded (map : ModuleMap) (key : ModuleKey) (dependencies : List ModuleKey) :
    Except Violation ModuleMap :=
  map.step key <| advance .loaded fun
    | .loading => some (.loaded dependencies)
    | _ => none

/-- A loaded module gets its instance. -/
def markInstantiated (map : ModuleMap) (key : ModuleKey) (inst : Instance) :
    Except Violation ModuleMap :=
  map.step key <| advance .instantiated fun
    | .loaded dependencies => some (.instantiated dependencies inst)
    | _ => none

/-- An instantiated module has been evaluated. -/
def markEvaluated (map : ModuleMap) (key : ModuleKey) : Except Violation ModuleMap :=
  map.step key <| advance .evaluated fun
    | .instantiated dependencies inst => some (.evaluated dependencies inst)
    | _ => none

/-- A module that has neither failed nor been evaluated fails. -/
def markFailed (map : ModuleMap) (key : ModuleKey) (failure : ModuleFailure) :
    Except Violation ModuleMap :=
  map.step key fun e =>
    match e.status with
    | .failed | .evaluated => .error (.cannotFail e.key e.status)
    | _ => .ok { e with failure := some failure }

end ModuleMap

end ModuleGraph
