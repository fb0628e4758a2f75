import ModuleGraph.Statement.BoundNames
import ModuleGraph.Statement.TokenStream
import ModuleGraph.Token.Lexer

/-!
# From tokens to statements

`SyntaxTree.parse` reads the statements of a source text. Imports, exports and module declarations
are read exactly; a run of code is only followed bracket by bracket to the place where the next
statement starts. The readers are bounded by a budget of recursive calls; a read token costs at most
four of them, so that the budget `SyntaxTree.parse` starts with is never spent.
-/

namespace ModuleGraph

namespace Parser

open TokenStream

/-! ## Import and export clauses -/

/-- The names between the braces of an import, up to the closing brace. -/
def importNames : Nat → TokenStream → Except SyntaxFault (List ImportBinding × TokenStream)
  | 0, s => .error (s.fault .budgetSpent)
  | n + 1, s =>
    if s.kind = .rightBrace then .ok ([], s)
    else do
      let (imported, s) ← s.expectExportName
      let (localName, s) ← if s.atWord "as" then s.advance.expectIdentifier else .ok (imported, s)
      if s.kind = .comma then do
        let (names, s) ← importNames n s.advance
        .ok (.named imported localName :: names, s)
      else .ok ([.named imported localName], s)

/-- The names between the braces of an export, up to the closing brace. -/
def exportedNames : Nat → TokenStream → Except SyntaxFault (List ExportedName × TokenStream)
  | 0, s => .error (s.fault .budgetSpent)
  | n + 1, s =>
    if s.kind = .rightBrace then .ok ([], s)
    else do
      let (localName, s) ← s.expectExportName
      let (exported, s) ← if s.atWord "as" then s.advance.expectExportName else .ok (localName, s)
      if s.kind = .comma then do
        let (names, s) ← exportedNames n s.advance
        .ok (⟨localName, exported⟩ :: names, s)
      else .ok ([⟨localName, exported⟩], s)

/-- The default binding of an import, if it has one, with the comma behind it. An identifier is a
default binding only before a comma or `from`. -/
def defaultBinding (s : TokenStream) : List ImportBinding × TokenStream :=
  match s.kind with
  | .identifier name =>
    if s.second.kind = .comma then ([.default name], s.advance.advance)
    else if s.second.isWord "from" then ([.default name], s.advance)
    else ([], s)
  | _ => ([], s)

/-- The bindings of an import after its default binding. They may be missing if there is a default
binding. -/
def furtherBindings (budget : Nat) (hasDefault : Bool) (s : TokenStream) :
    Except SyntaxFault (List ImportBinding × TokenStream) :=
  match s.kind with
  | .star => do
    let s ← s.advance.expectWord "as"
    let (localName, s) ← s.expectIdentifier
    .ok ([.namespace localName], s)
  | .leftBrace => do
    let (names, s) ← importNames budget s.advance
    let (_, s) ← s.expect .rightBrace
    .ok (names, s)
  | _ => if hasDefault then .ok ([], s) else .error (s.unexpected .importClause)

/-- A specifier with its attributes. -/
def specifier (s : TokenStream) : Except SyntaxFault (Specifier × TokenStream) := do
  let (source, s) ← s.expectSpecifier
  let s ← s.skipAttributes
  .ok (source, s)

/-- An import declaration. -/
def importDeclaration (budget : Nat) (s : TokenStream) :
    Except SyntaxFault (Statement × TokenStream) :=
  let start := s.current.span
  let s := s.advance
  match s.kind with
  | .string url => do
    let s ← s.advance.skipAttributes
    let (last, s) ← s.endStatement
    .ok (.importFrom (.url url) [] (start.cover last.span), s)
  | _ => do
    let (first, s) := defaultBinding s
    let (more, s) ← furtherBindings budget (!first.isEmpty) s
    let s ← s.expectWord "from"
    let (source, s) ← specifier s
    let (last, s) ← s.endStatement
    .ok (.importFrom source (first ++ more) (start.cover last.span), s)

/-- An `export *`, after the star. -/
def exportAllClause (start : Span) (s : TokenStream) :
    Except SyntaxFault (Statement × TokenStream) := do
  let (name?, s) ←
    if s.atWord "as" then do
      let (name, s) ← s.advance.expectExportName
      .ok (some name, s)
    else .ok (none, s)
  let s ← s.expectWord "from"
  let (source, s) ← specifier s
  let (last, s) ← s.endStatement
  .ok (.exportAll source name? (start.cover last.span), s)

/-- An `export` with names in braces, after the opening brace. -/
def exportNamesClause (budget : Nat) (start : Span) (s : TokenStream) :
    Except SyntaxFault (Statement × TokenStream) := do
  let (names, s) ← exportedNames budget s
  let (_, s) ← s.expect .rightBrace
  let (source, s) ←
    if s.atWord "from" then do
      let (source, s) ← specifier s.advance
      .ok (some source, s)
    else .ok (none, s)
  let (last, s) ← s.endStatement
  .ok (.exportNames names source (start.cover last.span), s)

/-! ## Code and module declarations -/

/-- Where a run of code ends: before the next statement, or already behind the brace that closes the
body of a function or class. -/
inductive CodeEnd where
  | statement
  | declaration
deriving DecidableEq, Repr

/-- Whether a statement other than code starts on a new line here. -/
def startsHere (s : TokenStream) : Bool :=
  s.current.newlineBefore && (s.atImport || s.atKeyword .«export» || s.atModule)

/-- What the code from `start` to the place of `s` is, by its last span and its modules. -/
def codeOf (start : Span) (r : (Span × List ModuleDeclaration) × TokenStream) :
    Code × TokenStream :=
  (.mk (start.cover r.1.1) r.1.2, r.2)

mutual

/-- The statements of a body, up to the end of input or, in a module declaration, up to the closing
brace. -/
def bodyOf : Nat → (inBraces : Bool) → TokenStream →
    Except SyntaxFault (List Statement × TokenStream)
  | 0, _, s => .error (s.fault .budgetSpent)
  | n + 1, inBraces, s =>
    if s.kind = .endOfInput then
      if inBraces then .error (s.fault .unclosedBody) else .ok ([], s)
    else if s.kind = .rightBrace ∧ inBraces then .ok ([], s)
    else if s.kind = .semicolon then bodyOf n inBraces s.advance
    else do
      let (statement, s) ← statementOf n s
      let (statements, s) ← bodyOf n inBraces s
      .ok (statement :: statements, s)

/-- One statement. -/
def statementOf : Nat → TokenStream → Except SyntaxFault (Statement × TokenStream)
  | 0, s => .error (s.fault .budgetSpent)
  | n + 1, s =>
    if s.atImport then importDeclaration n s
    else if s.atKeyword .«export» then exportOf n s.current.span s.advance
    else if s.atModule then do
      let (declaration, s) ← moduleOf n s.current.span false .statement s
      .ok (.module declaration, s)
    else do
      let r ← codeFrom n .statement true 0 s.current.span s
      let (code, s) := codeOf s.current.span r
      .ok (.code code, s)

/-- An export declaration, after `export`, whose span is `start`. -/
def exportOf : Nat → (start : Span) → TokenStream → Except SyntaxFault (Statement × TokenStream)
  | 0, _, s => .error (s.fault .budgetSpent)
  | n + 1, start, s =>
    if s.atModule then do
      let (declaration, s) ← moduleOf n start true .statement s
      .ok (.module declaration, s)
    else
      match s.kind with
      | .star => exportAllClause start s.advance
      | .leftBrace => exportNamesClause n start s.advance
      | .keyword .«default» => do
        let s := s.advance
        let codeEnd := if s.atFunctionOrClass then CodeEnd.declaration else .statement
        let r ← codeFrom n codeEnd true 0 s.current.span s
        let (code, after) := codeOf s.current.span r
        .ok (.exportDefault (s.declaredName?.getD defaultLocal) code (start.cover code.span), after)
      | .keyword .«function» | .keyword .«class» | .identifier "async" =>
        exportedDeclaration n .declaration start s
      | .keyword .«let» | .keyword .«const» | .keyword .«var» =>
        exportedDeclaration n .statement start s
      | _ => .error (s.unexpected .exportClause)

/-- An exported declaration that has to bind a name. -/
def exportedDeclaration : Nat → CodeEnd → (start : Span) → TokenStream →
    Except SyntaxFault (Statement × TokenStream)
  | 0, _, _, s => .error (s.fault .budgetSpent)
  | n + 1, codeEnd, start, s => do
    let r ← codeFrom n codeEnd true 0 s.current.span s
    let (code, after) := codeOf s.current.span r
    let names :=
      match s.declaredName? with
      | some name => [name]
      | none =>
        boundNames ((s.toList.take (s.ahead.length - after.ahead.length)).map Token.kind)
    if names.isEmpty then .error ⟨.declaresNothing, code.span⟩
    else .ok (.exportDeclaration names code (start.cover code.span), after)

/-- A module declaration whose first token has the span `start`. The current token is `module`. -/
def moduleOf : Nat → (start : Span) → (exported : Bool) → Placement → TokenStream →
    Except SyntaxFault (ModuleDeclaration × TokenStream)
  | 0, _, _, _, s => .error (s.fault .budgetSpent)
  | n + 1, start, exported, placement, s => do
    let s := s.advance
    let (name, s) :=
      match s.kind with
      | .identifier name => (some name, s.advance)
      | _ => (none, s)
    let (opening, s) ← s.expect .leftBrace
    let (body, s) ← bodyOf n true s
    let (closing, s) ← s.expect .rightBrace
    .ok (.mk name exported placement body (start.cover closing.span)
      ⟨opening.span.stop, closing.span.start⟩, s)

/-- The rest of a run of code that is `depth` brackets deep and whose last token or module so far
has the span `last`. `isFirst` tells that no token of the run is consumed yet. -/
def codeFrom : Nat → CodeEnd → (isFirst : Bool) → (depth : Nat) → (last : Span) → TokenStream →
    Except SyntaxFault ((Span × List ModuleDeclaration) × TokenStream)
  | 0, _, _, _, _, s => .error (s.fault .budgetSpent)
  | n + 1, codeEnd, isFirst, depth, last, s =>
    let token := s.current
    -- import, export or a module declaration on a new line ends code without a semicolon
    let onStatement := decide (depth = 0) && !isFirst && startsHere s
    match token.kind with
    | .endOfInput =>
      if depth = 0 then .ok ((last, []), s) else .error (s.fault .unclosedBracket)
    | .invalid fault => .error (s.fault (.lexical fault))
    | kind =>
      if depth = 0 ∧ kind = .semicolon then .ok ((token.span, []), s.advance)
      else if depth = 0 ∧ kind.isCloseBracket then
        if isFirst then .error (s.unexpected .nothing) else .ok ((last, []), s)
      else if (s.atModule || s.atAnonymousModule) && !onStatement then do
        let (declaration, s) ← moduleOf n token.span false .nested s
        let ((last, declarations), s) ← codeFrom n codeEnd false depth declaration.span s
        .ok ((last, declaration :: declarations), s)
      else if onStatement then .ok ((last, []), s)
      else if kind.isOpenBracket then codeFrom n codeEnd false (depth + 1) token.span s.advance
      else if kind.isCloseBracket then
        -- the brace that closes a function or class body ends its declaration
        if depth = 1 ∧ codeEnd = .declaration ∧ kind = .rightBrace then
          .ok ((token.span, []), s.advance)
        else codeFrom n codeEnd false (depth - 1) token.span s.advance
      else codeFrom n codeEnd false depth token.span s.advance

end

end Parser

namespace SyntaxTree

/-- The statements of tokens. -/
def bodyOfTokens (tokens : List Token) : Except SyntaxFault (List Statement) :=
  (Parser.bodyOf (4 * tokens.length + 4) false (.ofTokens tokens)).map Prod.fst

/-- Reads a source text. -/
def parse (text : List Char) : Except SyntaxError SyntaxTree :=
  match bodyOfTokens (Token.ofChars text) with
  | .ok body => .ok ⟨text, body⟩
  | .error fault => .error (.ofFault text fault)

end SyntaxTree

end ModuleGraph
