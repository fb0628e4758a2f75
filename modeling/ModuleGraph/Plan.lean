import ModuleGraph.Library

/-!
# Plans

A plan says for each module that has to be loaded which modules it depends on, or why it cannot be
loaded. `discover` makes the plan for a module wave by wave: it asks for the resources of all
modules of a wave and resolves their requests, which gives the next wave. Modules that have been
loaded or have failed before are left out.
-/

namespace ModuleGraph

/-- What is planned for one module. -/
inductive PlanNode where
  | ready (dependencies : List ModuleKey)
  | failed (fault : LoadFault)
deriving DecidableEq, Repr

/-- The dependencies of a node. -/
def PlanNode.dependencies : PlanNode → List ModuleKey
  | .ready dependencies => dependencies
  | .failed _ => []

/-- The nodes of modules by their keys. -/
abbrev Plan := List (ModuleKey × PlanNode)

namespace Plan

/-- The node of a key. -/
def node? (plan : Plan) (key : ModuleKey) : Option PlanNode :=
  List.lookup key plan

/-- The dependencies of a key. -/
def dependencies (plan : Plan) (key : ModuleKey) : List ModuleKey :=
  ((plan.node? key).map PlanNode.dependencies).getD []

end Plan

/-- The keys that the requests of a body name. -/
def Body.dependencies (b : Body) (importMap : ImportMap) (base : Url) :
    Except ResolveFault (List ModuleKey) :=
  b.requests.mapM fun request => resolve importMap request base b.scope

/-- The node of a module whose resource is given. -/
def PlanNode.ofResource (importMap : ImportMap) (key : ModuleKey) (resource : Resource) :
    PlanNode :=
  match resource.body? key.path with
  | none => .failed ⟨key, .resolve (.unbound key.text key.url.text .noSuchFragment)⟩
  | some body =>
    match body.dependencies importMap key.url with
    | .ok dependencies => .ready dependencies
    | .error fault => .failed ⟨key, .resolve fault⟩

/-- The node of a module. -/
def PlanNode.ofAnswer (importMap : ImportMap) (key : ModuleKey) :
    Except ResourceFault Resource → PlanNode
  | .ok resource => .ofResource importMap key resource
  | .error fault => .failed ⟨key, .resource fault⟩

/-- Whether a module has neither been loaded nor failed. -/
def ModuleMap.isPending (map : ModuleMap) (key : ModuleKey) : Bool :=
  !(map.entry key).isLoaded && (map.entry key).status != .failed

/-- A plan in the making. `wave` holds the keys that are planned next and `seen` all keys that have
been in a wave. -/
structure Discovery where
  catalog : Catalog
  plan : Plan
  seen : List ModuleKey
  wave : List ModuleKey

namespace Discovery

/-- The beginning of the plan for a key. -/
def start (catalog : Catalog) (key : ModuleKey) : Discovery :=
  ⟨catalog, [], [key], [key]⟩

/-- The keys among `keys` that are not in `seen`, each once. -/
def unseen (seen : List ModuleKey) : List ModuleKey → List ModuleKey
  | [] => []
  | k :: ks => if k ∈ seen then unseen seen ks else k :: unseen (k :: seen) ks

/-- Plans the modules of the wave. -/
def step (importMap : ImportMap) (library : Library) (d : Discovery) : Discovery :=
  let map := d.wave.foldl ModuleMap.register d.catalog.map
  -- what is settled keeps its outcome and needs no node
  let keys := d.wave.filter map.isPending
  let catalog := (keys.map ModuleKey.url).foldl (fun c url => c.obtain library url)
    { d.catalog with map }
  let nodes := keys.map fun key =>
    (key, PlanNode.ofAnswer importMap key ((catalog.answer? key.url).getD (library.fetch key.url)))
  let next := unseen d.seen (nodes.flatMap fun n => n.2.dependencies)
  ⟨catalog, d.plan ++ nodes, d.seen ++ next, next⟩

/-- Plans wave after wave until there is none left, at most `steps` times. -/
def run (importMap : ImportMap) (library : Library) : (steps : Nat) → Discovery → Discovery
  | 0, d => d
  | n + 1, d => if d.wave.isEmpty then d else run importMap library n (d.step importMap library)

/-- A number of waves that is never exceeded: each wave but the first two begins with a request that
no wave began with before. -/
def bound (library : Library) (catalog : Catalog) : Nat :=
  library.held.requestCount + catalog.answers.requestCount + 2

end Discovery

/-- The plan for a module, with the catalog in which the resources of all planned modules are
held. -/
def discover (importMap : ImportMap) (library : Library) (catalog : Catalog) (key : ModuleKey) :
    Catalog × Plan :=
  let d := (Discovery.start catalog key).run importMap library (Discovery.bound library catalog)
  (d.catalog, d.plan)

end ModuleGraph
