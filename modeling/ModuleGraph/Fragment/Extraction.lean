import ModuleGraph.Fragment

/-!
# From statements to bodies and fragments

`Resource.ofTree` collects the declarations of a source text body by body. What one body declares is
a function of its statements alone; the walk over the tree adds the paths, checks that no body gives
a fragment name or an export name twice, and lists the fragments.
-/

namespace ModuleGraph

/-! ## What one statement declares -/

namespace Statement

/-- The specifier that a statement requests. -/
def request? : Statement → Option Specifier
  | .importFrom source _ _ | .exportNames _ (some source) _ | .exportAll source _ _ => some source
  | _ => none

/-- The import entries of a statement. -/
def imports : Statement → List ImportEntry
  | .importFrom source bindings _ =>
    bindings.map fun b =>
      { request := source
        importName :=
          match b with
          | .default _ => .name "default"
          | .named imported _ => .name imported
          | .namespace _ => .namespace
        localName := b.localName }
  | _ => []

/-- The exports of a statement that name a local binding, whether it is declared or imported. -/
def localExports : Statement → List LocalExport
  | .exportNames names none _ => names.map fun n => ⟨n.exported, n.localName⟩
  | .exportDeclaration names _ _ => names.map fun n => ⟨n, n⟩
  | .exportDefault localName _ _ => [⟨"default", localName⟩]
  | _ => []

/-- The exports of a statement that name a binding of another module. -/
def indirectExports : Statement → List IndirectExport
  | .exportNames names (some source) _ =>
    names.map fun n => ⟨n.exported, source, .name n.localName⟩
  | .exportAll source (some name) _ => [⟨name, source, .namespace⟩]
  | _ => []

/-- The specifier of `export *` without an alias. -/
def starExport? : Statement → Option Specifier
  | .exportAll source none _ => some source
  | _ => none

/-- The name of the fragment that a statement declares. -/
def fragmentName? : Statement → Option String
  | .module d => d.name
  | _ => none

/-- The code of a statement. -/
def code? : Statement → Option Code
  | .exportDeclaration _ c _ | .exportDefault _ c _ | .code c => some c
  | _ => none

end Statement

/-! ## What one body declares -/

/-- The members of a list without repetitions, each at its first place. -/
def firstOccurrences {α : Type} [BEq α] : List α → List α
  | [] => []
  | a :: as => a :: (firstOccurrences as).filter (· != a)

/-- The first member of a list that equals an earlier one or one of `seen`. -/
def firstRepeated? (seen : List String) : List String → Option String
  | [] => none
  | a :: as => if a ∈ seen then some a else firstRepeated? (a :: seen) as

namespace Body

/-- The indirect export that a local export of an imported binding stands for. -/
def reexport? (imports : List ImportEntry) (e : LocalExport) : Option IndirectExport :=
  (imports.reverse.find? (·.localName == e.localName)).map fun i =>
    ⟨e.exportName, i.request, i.importName⟩

/-- The body of statements at a path of a text. Exports of imported bindings are indirect exports,
after those written as such. -/
def ofStatements (text : List Char) (path : FragmentPath) (statements : List Statement) : Body :=
  let imports := statements.flatMap Statement.imports
  let exports := statements.flatMap Statement.localExports
  { requests := firstOccurrences (statements.filterMap Statement.request?)
    imports := imports
    localExports := exports.filter fun e => (reexport? imports e).isNone
    indirectExports :=
      statements.flatMap Statement.indirectExports ++ exports.filterMap (reexport? imports)
    starExports := statements.filterMap Statement.starExport?
    scope := (statements.filterMap Statement.fragmentName?).map fun n => (n, path.child n)
    residual := "\n".intercalate ((statements.filterMap Statement.code?).map fun c =>
      String.ofList (Text.slice text c.span)) }

/-- The names that a body exports by itself, leaving out `export *`. -/
def exportNames (b : Body) : List String :=
  b.localExports.map LocalExport.exportName ++ b.indirectExports.map IndirectExport.exportName

end Body

/-! ## The walk over a tree -/

/-- The first fragment name that statements declare twice is a fault. -/
def checkFragmentNames (path : FragmentPath) (statements : List Statement) :
    Except ExtractionFault Unit :=
  match firstRepeated? [] (statements.filterMap Statement.fragmentName?) with
  | some name => .error (.duplicateFragment name path)
  | none => .ok ()

/-- The first export name that a body has twice is a fault. -/
def checkExportNames (path : FragmentPath) (body : Body) : Except ExtractionFault Unit :=
  match firstRepeated? [] body.exportNames with
  | some name => .error (.duplicateExport name path)
  | none => .ok ()

mutual

/-- The fragments of statements at a path. `ordinal` counts the inline modules of the body before
them. -/
def statementsFragments (text : List Char) (path : FragmentPath) (ordinal : Nat) :
    List Statement → Except ExtractionFault (List Fragment)
  | [] => .ok []
  | .module d :: rest => do
    match d.name with
    | some name =>
      let here ← declarationFragments text (path.child name) .importable d
      let more ← statementsFragments text path ordinal rest
      .ok (here ++ more)
    | none =>
      let inner := path.child (FragmentPath.inlineSegment ordinal)
      let here ← declarationFragments text inner .inline d
      let more ← statementsFragments text path (ordinal + 1) rest
      .ok (here ++ more)
  | .code c :: rest | .exportDeclaration _ c _ :: rest | .exportDefault _ c _ :: rest => do
    let here ← codeFragments text path ordinal c
    let more ← statementsFragments text path (ordinal + c.inlineModules.length) rest
    .ok (here ++ more)
  | .importFrom .. :: rest | .exportNames .. :: rest | .exportAll .. :: rest =>
    statementsFragments text path ordinal rest

/-- The fragments inside code. -/
def codeFragments (text : List Char) (path : FragmentPath) (ordinal : Nat) :
    Code → Except ExtractionFault (List Fragment)
  | .mk _ declarations => inlineFragments text path ordinal declarations

/-- The fragments of inline modules. -/
def inlineFragments (text : List Char) (path : FragmentPath) (ordinal : Nat) :
    List ModuleDeclaration → Except ExtractionFault (List Fragment)
  | [] => .ok []
  | d :: ds => do
    let here ← declarationFragments text (path.child (FragmentPath.inlineSegment ordinal)) .inline d
    let more ← inlineFragments text path (ordinal + 1) ds
    .ok (here ++ more)

/-- The fragment of a declaration at a path, followed by those inside it. -/
def declarationFragments (text : List Char) (path : FragmentPath) (form : FragmentForm) :
    ModuleDeclaration → Except ExtractionFault (List Fragment)
  | .mk name exported _ statements span _ => do
    checkFragmentNames path statements
    let inner ← statementsFragments text path 0 statements
    let body := Body.ofStatements text path statements
    checkExportNames path body
    .ok (⟨name, path, exported && form = .importable, form, body, span⟩ :: inner)

end

/-- The modules of a parsed source text. -/
def Resource.ofTree (tree : SyntaxTree) : Except ExtractionFault Resource := do
  checkFragmentNames [] tree.body
  let fragments ← statementsFragments tree.text [] 0 tree.body
  let root := Body.ofStatements tree.text [] tree.body
  checkExportNames [] root
  .ok ⟨root, fragments⟩

end ModuleGraph
