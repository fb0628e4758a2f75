import ModuleGraph.Toml.DateTime

/-!
# Building TOML documents

A document is a list of members under headers. `Toml.ofSections?` puts them together and refuses
what contradicts itself: a name given twice, a table defined twice, a header or a dotted name that
goes through a value. A table whose first member has the name `Toml.dateTimeName` stands for the
date or time that the member spells.
-/

namespace ModuleGraph.Toml

/-- How a table came to be: by the way of another name, by dotted names, or by a header. -/
inductive Origin where
  | passed
  | dotted
  | header
deriving DecidableEq, Repr

/-- A member in the making: a value, which is closed, a table, or the tables under a header of
double brackets. -/
inductive Node where
  | value (value : Toml)
  | table (origin : Origin) (members : List (String × Node))
  | tables (items : List (List (String × Node)))

/-- The members of a table in the making. -/
abbrev Members := List (String × Node)

namespace Members

/-- Gives a member another node. -/
def replace (ms : Members) (name : String) (node : Node) : Members :=
  ms.map fun m => if m.1 == name then (name, node) else m

/-- Changes the table that a path leads to, by a function of its origin and members. Tables that are
missing on the way get the origin `made`; dotted names go through no table that has a header. -/
def alter (made : Origin) (f : Origin → Members → Option Members) :
    (path : List String) → (here : Origin) → Members → Option Members
  | [], here, ms => f here ms
  | name :: path, _, ms =>
    match ms.lookup name with
    | none => do
      let inner ← alter made f path made []
      some (ms ++ [(name, .table made inner)])
    | some (.value _) => none
    | some (.table origin inner) =>
      if made = .dotted ∧ origin = .header then none
      else (alter made f path origin inner).map fun inner => ms.replace name (.table origin inner)
    | some (.tables items) =>
      match items.getLast? with
      | none => none
      | some last =>
        (alter made f path .header last).map fun inner =>
          ms.replace name (.tables (items.dropLast ++ [inner]))

/-- Adds a member under a dotted name, of which `path` is all but the last part. Parts on the way
are tables made by dotted names alone. -/
def insert (ms : Members) (path : List String) (name : String) (value : Toml) : Option Members :=
  alter .dotted
    (fun here ms =>
      if path.isEmpty = (here == .dotted) ∨ (ms.lookup name).isSome then none
      else some (ms ++ [(name, .value value)]))
    path .header ms

end Members

/-- A dotted name: all parts but the last, and the last. -/
abbrev Name := List String × String

/-- A member as written. -/
abbrev KeyValue := Name × Toml

/-- Adds members one after the other. -/
def Members.insertAll (ms : Members) (pairs : List KeyValue) : Option Members :=
  pairs.foldlM (fun ms p => ms.insert p.1.1 p.1.2 p.2) ms

/-- A header with the members below it. `many` is set under double brackets. -/
structure Section where
  name : Name
  many : Bool
  pairs : List KeyValue

namespace Section

/-- The table that a header opens again: none but one that other headers passed through. -/
def opened? (ms : Members) (name : String) : Option Members :=
  match ms.lookup name with
  | none => some []
  | some (.table .passed inner) => some inner
  | some _ => none

/-- The tables that a header of double brackets adds one to. -/
def items? (ms : Members) (name : String) : Option (List Members) :=
  match ms.lookup name with
  | none => some []
  | some (.tables items) => some items
  | some _ => none

/-- Adds a section to a document. -/
def addTo (s : Section) (root : Members) : Option Members :=
  Members.alter .passed
    (fun _ ms => do
      if s.many then
        let items ← items? ms s.name.2
        let members ← Members.insertAll [] s.pairs
        let node := Node.tables (items ++ [members])
        some (if items.isEmpty then ms ++ [(s.name.2, node)] else ms.replace s.name.2 node)
      else
        let members ← (← opened? ms s.name.2).insertAll s.pairs
        some (ms.filter (·.1 != s.name.2) ++ [(s.name.2, .table .header members)]))
    s.name.1 .header root

end Section

/-- The value of a table's members. -/
def ofTable? : List (String × Toml) → Option Toml
  | (name, value) :: ms =>
    if name = dateTimeName then
      match value with
      | .string text => (DateTime.ofText? text).map .dateTime
      | _ => none
    else some (.table ((name, value) :: ms))
  | [] => some (.table [])

mutual

/-- The value of a node. -/
def ofNode? : Node → Option Toml
  | .value v => some v
  | .table _ ms => (ofMembers? ms).bind ofTable?
  | .tables items => (ofItems? items).map .array

/-- The values of members. -/
def ofMembers? : List (String × Node) → Option (List (String × Toml))
  | [] => some []
  | (name, node) :: ms => do
    let value ← ofNode? node
    some ((name, value) :: (← ofMembers? ms))

/-- The values of tables. -/
def ofItems? : List (List (String × Node)) → Option (List Toml)
  | [] => some []
  | ms :: items => do
    let value ← (← ofMembers? ms) |> ofTable?
    some (value :: (← ofItems? items))

end

/-- The value of an inline table's members. -/
def inlineTable? (pairs : List KeyValue) : Option Toml := do
  ofTable? (← ofMembers? (← Members.insertAll [] pairs))

/-- The members of a document: those before the first header, and its sections. -/
def ofSections? (pairs : List KeyValue) (sections : List Section) :
    Option (List (String × Toml)) := do
  let root ← Members.insertAll [] pairs
  let root ← sections.foldlM (fun root s => s.addTo root) root
  ofMembers? root

end ModuleGraph.Toml
