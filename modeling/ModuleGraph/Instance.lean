import ModuleGraph.Fragment
import ModuleGraph.Value

/-!
# Instances and their cells

An instance is a module with its bindings: one cell for each exported local, and what its imports
and exports refer to. Imports refer to the cells of other instances, so that every importer sees the
exporter's current value. The values are kept apart, in `Cells`.
-/

namespace ModuleGraph

/-- The place of one exported local. -/
structure Cell where
  owner : InstanceId
  name : String
deriving DecidableEq, Repr

/-- What an import or export refers to: a cell, or the namespace of an instance. -/
inductive Binding where
  | cell (cell : Cell)
  | namespace (owner : InstanceId)
deriving DecidableEq, Repr

/-- A linked module. `round` is the number of the call that made it. Of two imports that bind one
local name the later one counts. -/
structure Instance where
  key : ModuleKey
  round : Nat
  locals : List String
  imports : List (String × Binding)
  exports : List (String × Binding)
deriving DecidableEq, Repr

/-- The local names that a body exports. -/
def Body.exportedLocals (b : Body) : List String :=
  b.localExports.map LocalExport.localName

namespace Instance

/-- The instance of a body before it is linked. -/
def ofBody (round : Nat) (key : ModuleKey) (body : Body) : Instance :=
  ⟨key, round, body.exportedLocals, [], []⟩

/-- The identity of the instance. -/
def id (i : Instance) : InstanceId :=
  ⟨i.key, i.round⟩

/-- The address that the module sees as its own. -/
def url (i : Instance) : Url :=
  i.key.url

/-- The cell of an exported local. -/
def local? (i : Instance) (name : String) : Option Cell :=
  if i.locals.contains name then some ⟨i.id, name⟩ else none

/-- What an imported name refers to. -/
def import? (i : Instance) (name : String) : Option Binding :=
  i.imports.reverse.lookup name

/-- What an export refers to. -/
def export? (i : Instance) (name : String) : Option Binding :=
  i.exports.lookup name

/-- The exported names in their order. -/
def exportNames (i : Instance) : List String :=
  i.exports.map Prod.fst

end Instance

/-- The values of cells. A cell without a value is not initialized. -/
abbrev Cells := List (Cell × Value)

namespace Cells

/-- The value of a cell. -/
def get? (cells : Cells) (cell : Cell) : Option Value :=
  List.lookup cell cells

/-- Gives a cell a value. -/
def set (cells : Cells) (cell : Cell) (value : Value) : Cells :=
  (cell, value) :: cells.filter (·.1 != cell)

/-- The value of a binding; a namespace always has one. -/
def valueOf? (cells : Cells) : Binding → Option Value
  | .cell cell => cells.get? cell
  | .namespace owner => some (.namespace owner)

/-- Gives every exported local of an instance that has no value yet the undefined one. -/
def settle (cells : Cells) (i : Instance) (locals : List String) : Cells :=
  (locals.filterMap i.local?).foldl
    (fun cells cell => if (cells.get? cell).isSome then cells else cells.set cell .undefined) cells

end Cells

/-- The exports of an instance with their present values. -/
structure NamespaceView where
  key : ModuleKey
  exports : List (String × Binding × Option Value)

/-- The view of an instance. -/
def Instance.view (i : Instance) (cells : Cells) : NamespaceView :=
  ⟨i.key, i.exports.map fun e => (e.1, e.2, cells.valueOf? e.2)⟩

end ModuleGraph
