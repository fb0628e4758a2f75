import ModuleGraph.Evaluation
import ModuleGraph.Linking

/-!
# Realms

A realm is a catalog of modules together with the state of the host that runs their bodies. Its
calls load, instantiate and evaluate modules by key or by specifier. A call that ends early keeps
what it had done until then.
-/

namespace ModuleGraph

/-- What a realm is embedded in: the address that specifiers are relative to, the import map, the
library, and the executor of module bodies. -/
structure Host (σ : Type) where
  base : Url
  importMap : ImportMap
  library : Library
  execute : Executor σ

/-- The state of a realm. `rounds` counts the calls that instantiate, and `ran` holds the modules
whose bodies have been run, in their order. -/
structure Realm (σ : Type) where
  catalog : Catalog
  rounds : Nat
  ran : List ModuleKey
  host : σ

/-- Why a call fails. -/
inductive RealmFault where
  | resolve (fault : ResolveFault)
  | load (fault : LoadFault)
  | link (fault : LinkFault)
  | eval (fault : EvalFault)
deriving DecidableEq, Repr

/-- The message of a fault. -/
def RealmFault.message : RealmFault → String
  | .resolve fault => fault.message
  | .load fault => fault.message
  | .link fault => fault.message
  | .eval fault => fault.message

/-- A call on a realm. -/
abbrev RealmM (σ : Type) := EStateM (Halt RealmFault) (Realm σ)

/-- The same end with another fault. -/
def Halt.map {φ ψ : Type} (f : φ → ψ) : Halt φ → Halt ψ
  | .fault cause => .fault (f cause)
  | .violation v => .violation v

namespace Realm

variable {σ : Type}

/-- A realm in which nothing is known. -/
def fresh (host : σ) : Realm σ :=
  ⟨Catalog.empty, 0, [], host⟩

/-- The module map. -/
def map (r : Realm σ) : ModuleMap :=
  r.catalog.map

/-- The realm with another module map. -/
def withMap (r : Realm σ) (map : ModuleMap) : Realm σ :=
  { r with catalog := { r.catalog with map } }

/-- The instance of a module. -/
def instance? (r : Realm σ) (key : ModuleKey) : Option Instance :=
  r.map.instance? key

/-- Takes a step in the module map. -/
def step (f : ModuleMap → Except Violation ModuleMap) : RealmM σ Unit := fun r =>
  match f r.map with
  | .ok map => .ok () (r.withMap map)
  | .error violation => .error (.violation violation) r

/-- The key of a specifier. -/
def resolve (h : Host σ) (specifier : String) : RealmM σ ModuleKey := fun r =>
  match resolveUrl h.importMap specifier h.base with
  | .ok key => .ok key r
  | .error fault => .error (.fault (.resolve fault)) r

/-- Loads a module and what it depends on. -/
def loadKey (h : Host σ) (key : ModuleKey) : RealmM σ Unit := fun r =>
  match Catalog.load h.importMap h.library key r.catalog with
  | .ok _ catalog => .ok () { r with catalog }
  | .error halt catalog => .error (halt.map .load) { r with catalog }

/-- Loads the module of a specifier. -/
def load (h : Host σ) (specifier : String) : RealmM σ ModuleKey := do
  let key ← resolve h specifier
  loadKey h key
  return key

/-- Instantiates a loaded module and what it depends on. -/
def instantiate (key : ModuleKey) : RealmM σ Instance := fun r =>
  let next (map : ModuleMap) : Realm σ := { r.withMap map with rounds := r.rounds + 1 }
  match ModuleMap.instantiate r.rounds key r.map with
  | .ok i map => .ok i (next map)
  | .error halt map => .error (halt.map .link) (next map)

/-- Evaluates an instantiated module after what it depends on. -/
def evaluate (h : Host σ) (key : ModuleKey) : RealmM σ Unit := fun r =>
  let next (e : Evaluator σ) : Realm σ := { r.withMap e.map with ran := e.ran, host := e.host }
  match EvalM.run h.execute key ⟨r.map, [], r.ran, r.host⟩ with
  | .ok _ e => .ok () (next e)
  | .error halt e => .error (halt.map .eval) (next e)

/-- Loads, instantiates and evaluates a module. -/
def importKey (h : Host σ) (key : ModuleKey) : RealmM σ Instance := do
  loadKey h key
  let i ← instantiate key
  evaluate h key
  return i

/-- Imports the module of a specifier. -/
def importSpecifier (h : Host σ) (specifier : String) : RealmM σ Instance := do
  importKey h (← resolve h specifier)

end Realm

end ModuleGraph
