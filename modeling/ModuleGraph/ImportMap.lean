import ModuleGraph.Json
import ModuleGraph.Url.Parser

/-!
# Import maps

An import map sends specifiers to URLs: by an exact entry, or by an entry whose key ends in a slash
and is a leading part of the specifier. Entries may be confined to a scope, a part of the referring
URLs. Longer keys and longer scopes come first. `ImportMap.ofJson` reads a map and
`ImportMap.resolve?` answers a specifier.
-/

namespace ModuleGraph

/-- Why a text is no import map. -/
inductive ImportMapFault where
  | malformed
  | notAnObject
  | invalidAddress (key : String) (fault : UrlFault)
  | missingSlash (key : String)
deriving DecidableEq, Repr

/-- The message of a fault. -/
def ImportMapFault.message : ImportMapFault → String
  | .malformed => "Invalid import map: malformed"
  | .notAnObject => "Invalid import map: top-level value must be a JSON object"
  | .invalidAddress key fault => "Invalid import map entry '" ++ key ++ "': " ++ fault.message
  | .missingSlash key =>
    "Invalid import map entry '" ++ key ++ "': address of a trailing-slash key must end with '/'"

/-- Whether a specifier is a relative reference. -/
def isRelativeSpecifier (specifier : String) : Bool :=
  match specifier.toList with
  | '/' :: _ | '.' :: '/' :: _ | '.' :: '.' :: '/' :: _ => true
  | _ => false

/-- A specifier in the form in which keys are compared: a URL where it is one, relative to `base` or
absolute, and otherwise as it stands. An empty or broken reference has none. -/
def normalizeSpecifier? (specifier : String) (base : Url) : Option String :=
  if specifier = "" then none
  else if isRelativeSpecifier specifier then (base.join specifier).toOption.map Url.text
  else
    match Url.parse specifier with
    | .ok url => some url.text
    | .error _ => some specifier

/-- Whether a text ends in a slash. -/
def endsInSlash (text : String) : Bool :=
  text.toList.getLast? == some '/'

/-- The part of a text behind a leading part. -/
def dropLeading? (part text : String) : Option String :=
  if part.toList.isPrefixOf text.toList then
    some (String.ofList (text.toList.drop part.toList.length))
  else none

/-- The order of keys: longer ones first, keys of one length by their text. -/
def precedes (a b : String) : Bool :=
  b.utf8ByteSize < a.utf8ByteSize || (a.utf8ByteSize == b.utf8ByteSize && a ≤ b)

/-- Addresses by normalized key, in the order of look-up. -/
structure SpecifierMap where
  entries : List (String × Url)
deriving DecidableEq, Repr

namespace SpecifierMap

/-- The entry of a key and an address as written, unless the key is not usable. -/
def entry? (base : Url) (key address : String) : Except ImportMapFault (Option (String × Url)) :=
  match normalizeSpecifier? key base with
  | none => .ok none
  | some key =>
    match base.join address with
    | .error fault => .error (.invalidAddress key fault)
    | .ok url =>
      if endsInSlash key ∧ !endsInSlash url.text then .error (.missingSlash key)
      else .ok (some (key, url))

/-- The map of keys and addresses as written. -/
def ofMembers (base : Url) (members : List (String × String)) :
    Except ImportMapFault SpecifierMap := do
  let entries ← members.mapM fun m => entry? base m.1 m.2
  .ok ⟨(entries.filterMap id).mergeSort fun a b => precedes a.1 b.1⟩

/-- What an entry says about a normalized specifier, if it is about it at all: the address for the
key itself, and the rest joined to the address behind a key that ends in a slash. -/
def answer? (specifier : String) (entry : String × Url) : Option (Option String) :=
  if entry.1 = specifier then some (some entry.2.text)
  else if endsInSlash entry.1 then
    (dropLeading? entry.1 specifier).map fun rest => (entry.2.join rest).toOption.map Url.text
  else none

/-- The URL of a normalized specifier: the answer of the first entry that is about it. -/
def find? (map : SpecifierMap) (specifier : String) : Option String :=
  (map.entries.findSome? (answer? specifier)).join

end SpecifierMap

/-- The members of an import map as written: of `imports`, and of each scope. -/
structure ImportMapSource where
  imports : List (String × String)
  scopes : List (String × List (String × String))
deriving DecidableEq, Repr

namespace ImportMapSource

/-- The members of a JSON object of strings. -/
def strings? : Json → Option (List (String × String))
  | .object members =>
    members.mapM fun m =>
      match m.2 with
      | .string value => some (m.1, value)
      | _ => none
  | _ => none

/-- The members of a JSON object of objects of strings. -/
def maps? : Json → Option (List (String × List (String × String)))
  | .object members => members.mapM fun m => (strings? m.2).map fun value => (m.1, value)
  | _ => none

/-- A member of an object read by `f`, and nothing where it is missing. -/
def memberOr? {α : Type} (members : List (String × Json)) (name : String)
    (f : Json → Option (List α)) : Option (List α) :=
  match Json.member? members name with
  | some value => f value
  | none => some []

/-- The members of an import map's text. -/
def ofText (text : String) : Except ImportMapFault ImportMapSource :=
  match Json.parse? text with
  | none => .error .malformed
  | some (.object members) =>
    match memberOr? members "imports" strings?, memberOr? members "scopes" maps? with
    | some imports, some scopes => .ok ⟨imports, scopes⟩
    | _, _ => .error .malformed
  | some _ => .error .notAnObject

end ImportMapSource

/-- An import map. `scopes` holds the prefix of each scope with its entries. -/
structure ImportMap where
  imports : SpecifierMap
  scopes : List (String × SpecifierMap)
deriving DecidableEq, Repr

namespace ImportMap

/-- The map without entries. -/
def empty : ImportMap :=
  ⟨⟨[]⟩, []⟩

/-- A scope with its entries. -/
def scope (base : Url) (start : String) (members : List (String × String)) :
    Except ImportMapFault (String × SpecifierMap) :=
  match base.join start with
  | .error fault => .error (.invalidAddress start fault)
  | .ok url => (SpecifierMap.ofMembers base members).map fun map => (url.text, map)

/-- The map of members as written. Relative addresses and scopes are relative to `base`. -/
def ofSource (base : Url) (source : ImportMapSource) : Except ImportMapFault ImportMap := do
  let imports ← SpecifierMap.ofMembers base source.imports
  let scopes ← source.scopes.mapM fun s => scope base s.1 s.2
  .ok ⟨imports, scopes.mergeSort fun a b => precedes a.1 b.1⟩

/-- Reads an import map. -/
def ofJson (text : String) (base : Url) : Except ImportMapFault ImportMap := do
  ofSource base (← ImportMapSource.ofText text)

/-- Whether the map maps nothing. -/
def isEmpty (map : ImportMap) : Bool :=
  map.imports.entries.isEmpty && map.scopes.isEmpty

/-- Whether a referring URL lies in a scope: it is the scope, or the scope ends in a slash and is a
leading part of it. -/
def inScope (referrer scope : String) : Bool :=
  referrer == scope || (endsInSlash scope && scope.toList.isPrefixOf referrer.toList)

/-- The URL that a specifier written in the module of a referring URL is mapped to. The scopes that
hold the referrer answer first. -/
def resolve? (map : ImportMap) (specifier : String) (referrer : Url) : Option String := do
  let specifier ← normalizeSpecifier? specifier referrer
  let inScopes := map.scopes.findSome? fun s =>
    if inScope referrer.text s.1 then s.2.find? specifier else none
  inScopes.or (map.imports.find? specifier)

end ImportMap

end ModuleGraph
