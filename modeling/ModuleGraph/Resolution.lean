import ModuleGraph.Fragment
import ModuleGraph.ImportMap
import ModuleGraph.Key

/-!
# Resolving specifiers

`resolve` turns a specifier of a module body into the key of the module it names. A fragment name is
looked up among the fragments of the body; the text of a URL goes through the import map first and
must then be a reference that starts with `#`, `/`, `./` or `../`, or an absolute URL.
-/

namespace ModuleGraph

/-- Why a reference to a module is not bound. -/
inductive UnboundCause where
  | notDeclared
  | noSuchFragment
  | notDiscovered
  | inlineModule
  | notExported
deriving DecidableEq, Repr

/-- The message of a cause. -/
def UnboundCause.message : UnboundCause → String
  | .notDeclared => "no fragment with this name is declared in the importing module body"
  | .noSuchFragment => "the resource declares no such fragment"
  | .notDiscovered => "module was not discovered"
  | .inlineModule => "inline module blocks can only be imported dynamically"
  | .notExported => "fragment is not exported from its resource"

/-- Why a specifier or key cannot be resolved. -/
inductive ResolveFault where
  | invalidSpecifier (specifier : String) (fault : SpecifierFault)
  | unbound (specifier referrer : String) (cause : UnboundCause)
deriving DecidableEq, Repr

/-- The message of a fault. -/
def ResolveFault.message : ResolveFault → String
  | .invalidSpecifier specifier fault =>
    "Invalid module specifier '" ++ specifier ++ "': " ++ fault.message
  | .unbound specifier referrer cause =>
    "Unbound fragment reference '" ++ specifier ++ "' from " ++ referrer ++ ": " ++ cause.message

/-- The key of the URL that a specifier reads as, without an import map. -/
def referenceKey (text : String) (base : Url) : Except SpecifierFault ModuleKey :=
  if text.toList.head? = some '#' ∨ isRelativeSpecifier text then
    match base.join text with
    | .ok url => ModuleKey.ofReference url
    | .error fault => .error (.url fault)
  else
    match Url.parse text with
    | .ok url => ModuleKey.ofReference url
    | .error .relativeWithoutBase => .error .unmapped
    | .error fault => .error (.url fault)

/-- The key of a URL specifier written in a module with the given base URL. -/
def resolveUrl (map : ImportMap) (specifier : String) (base : Url) :
    Except ResolveFault ModuleKey :=
  let result : Except SpecifierFault ModuleKey :=
    if specifier = "" then .error .empty
    else referenceKey ((map.resolve? specifier base).getD specifier) base
  result.mapError (.invalidSpecifier specifier)

/-- The key of a specifier in a body with the given base URL and scope. -/
def resolve (map : ImportMap) (specifier : Specifier) (base : Url) (scope : Scope) :
    Except ResolveFault ModuleKey :=
  match specifier with
  | .url text => resolveUrl map text base
  | .fragment name =>
    match scope.find? name with
    | some path => .ok (ModuleKey.ofUrl base path)
    | none => .error (.unbound name base.text .notDeclared)

/-- The key of a text, as a fault to report. -/
def keyOf (text : String) : Except ResolveFault ModuleKey :=
  (ModuleKey.parse text).mapError (.invalidSpecifier text)

end ModuleGraph
