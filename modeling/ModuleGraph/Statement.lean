import ModuleGraph.Text.Span

/-!
# The structure of a module's source

A module body is a list of statements. Imports, exports and module declarations are kept in full;
everything else is a stretch of `Code`, known only by its span and by the module declarations that
stand inside it. A module declaration has a body of its own, so the types are mutually recursive.
-/

namespace ModuleGraph

/-- How a declaration names another module: by the text of a URL, or by the name of a module
declared in the same body. -/
inductive Specifier where
  | url (text : String)
  | fragment (name : String)
deriving DecidableEq, Repr

namespace Specifier

/-- The text of a specifier without its quotes. -/
def text : Specifier → String
  | .url text => text
  | .fragment name => name

/-- The specifier as it is shown, a URL in quotes. -/
def display : Specifier → String
  | .url text => "\"" ++ text ++ "\""
  | .fragment name => name

end Specifier

/-- A name that an import binds. -/
inductive ImportBinding where
  | default (localName : String)
  | named (imported localName : String)
  | namespace (localName : String)
deriving DecidableEq, Repr

/-- The local name of an import binding. -/
def ImportBinding.localName : ImportBinding → String
  | .default localName | .named _ localName | .namespace localName => localName

/-- A name in an export clause: `localName` is exported as `exported`. -/
structure ExportedName where
  localName : String
  exported : String
deriving DecidableEq, Repr

/-- Where a module declaration stands: among the statements of a body, or inside code. -/
inductive Placement where
  | statement
  | nested
deriving DecidableEq, Repr

mutual

/-- A statement of a module body. -/
inductive Statement where
  | importFrom (source : Specifier) (bindings : List ImportBinding) (span : Span)
  | exportNames (names : List ExportedName) (source : Option Specifier) (span : Span)
  | exportAll (source : Specifier) (name? : Option String) (span : Span)
  | exportDeclaration (names : List String) (code : Code) (span : Span)
  | exportDefault (localName : String) (code : Code) (span : Span)
  | module (declaration : ModuleDeclaration)
  | code (code : Code)

/-- Code that is not looked into, apart from the module declarations inside it. -/
inductive Code where
  | mk (span : Span) (inlineModules : List ModuleDeclaration)

/-- A module declaration. One inside code may have no name. -/
inductive ModuleDeclaration where
  | mk (name : Option String) (exported : Bool) (placement : Placement)
      (body : List Statement) (span bodySpan : Span)

end

namespace Code

/-- The place of the code. -/
def span : Code → Span
  | .mk span _ => span

/-- The module declarations inside the code, in order. -/
def inlineModules : Code → List ModuleDeclaration
  | .mk _ inlineModules => inlineModules

end Code

namespace ModuleDeclaration

/-- The declared name. -/
def name : ModuleDeclaration → Option String
  | .mk name _ _ _ _ _ => name

/-- Whether the declaration is preceded by `export`. -/
def exported : ModuleDeclaration → Bool
  | .mk _ exported _ _ _ _ => exported

/-- Where the declaration stands. -/
def placement : ModuleDeclaration → Placement
  | .mk _ _ placement _ _ _ => placement

/-- The statements between the braces. -/
def body : ModuleDeclaration → List Statement
  | .mk _ _ _ body _ _ => body

/-- The place of the declaration. -/
def span : ModuleDeclaration → Span
  | .mk _ _ _ _ span _ => span

/-- The place between the braces. -/
def bodySpan : ModuleDeclaration → Span
  | .mk _ _ _ _ _ bodySpan => bodySpan

end ModuleDeclaration

namespace Statement

/-- The place of a statement. -/
def span : Statement → Span
  | .importFrom _ _ span | .exportNames _ _ span | .exportAll _ _ span
  | .exportDeclaration _ _ span | .exportDefault _ _ span => span
  | .module d => d.span
  | .code c => c.span

end Statement

/-- The local name of a default export that has no name of its own. -/
def defaultLocal : String :=
  "*default*"

/-- A source text with its statements. -/
structure SyntaxTree where
  text : List Char
  body : List Statement

end ModuleGraph
