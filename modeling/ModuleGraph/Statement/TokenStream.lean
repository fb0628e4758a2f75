import ModuleGraph.Statement
import ModuleGraph.Statement.Fault

/-!
# Reading through tokens

A `TokenStream` is a place among tokens: the token before, the current one and those ahead. The last
token stays current for ever, so that looking and moving ahead never run out of tokens.
-/

namespace ModuleGraph

/-- A place among tokens. -/
structure TokenStream where
  previous : Option Token
  current : Token
  ahead : List Token

namespace TokenStream

/-- The place before the first of some tokens. -/
def ofTokens : List Token → TokenStream
  | [] => ⟨none, ⟨.endOfInput, ⟨0, 0⟩, false⟩, []⟩
  | t :: ts => ⟨none, t, ts⟩

/-- The tokens from the current one on. -/
def toList (s : TokenStream) : List Token :=
  s.current :: s.ahead

/-- The place one token further, or the same place at the last token. -/
def advance (s : TokenStream) : TokenStream :=
  match s.ahead with
  | [] => s
  | t :: ts => ⟨some s.current, t, ts⟩

/-- The token after the current one. -/
def second (s : TokenStream) : Token :=
  s.advance.current

/-- The token two after the current one. -/
def third (s : TokenStream) : Token :=
  s.advance.advance.current

/-- The kind of the current token. -/
def kind (s : TokenStream) : Token.Kind :=
  s.current.kind

/-- Whether the current token is the given reserved word. -/
def atKeyword (k : Keyword) (s : TokenStream) : Bool :=
  s.kind == .keyword k

/-- Whether the current token is the given identifier. -/
def atWord (word : String) (s : TokenStream) : Bool :=
  s.current.isWord word

/-- The fault of a current token that is not what was expected. -/
def unexpected (expectation : Expectation) (s : TokenStream) : SyntaxFault :=
  match s.kind with
  | .invalid fault => ⟨.lexical fault, s.current.span⟩
  | kind => ⟨.unexpected kind expectation, s.current.span⟩

/-- A fault at the current token. -/
def fault (cause : SyntaxCause) (s : TokenStream) : SyntaxFault :=
  ⟨cause, s.current.span⟩

/-- Whether the current token follows `.` or `?.`, so that it names a property. -/
def afterMemberAccess (s : TokenStream) : Bool :=
  s.previous.any fun t => t.kind == .dot || t.kind == .operator "?."

/-- Whether an import declaration starts here. `import(` and `import.` start expressions. -/
def atImport (s : TokenStream) : Bool :=
  s.atKeyword .«import» && s.second.kind != .leftParen && s.second.kind != .dot

/-- Whether `module` starts a declaration here rather than naming something. -/
def atModuleWord (s : TokenStream) : Bool :=
  s.atWord "module" && !s.afterMemberAccess

/-- Whether a token is an identifier. -/
def isName (t : Token) : Bool :=
  match t.kind with
  | .identifier _ => true
  | _ => false

/-- Whether the declaration of a named module starts here: `module`, a name on the same line and an
opening brace. -/
def atModule (s : TokenStream) : Bool :=
  s.atModuleWord && isName s.second && !s.second.newlineBefore && s.third.kind == .leftBrace

/-- Whether the declaration of a module without a name starts here. -/
def atAnonymousModule (s : TokenStream) : Bool :=
  s.atModuleWord && s.second.kind == .leftBrace && !s.second.newlineBefore

/-- Whether a function or class starts here. -/
def atFunctionOrClass (s : TokenStream) : Bool :=
  let t := if s.atWord "async" then s.second else s.current
  t.kind == .keyword .«function» || t.kind == .keyword .«class»

/-- The name of the function or class that starts here. -/
def declaredName? (s : TokenStream) : Option String :=
  let s := if s.atWord "async" && !s.second.newlineBefore then s.advance else s
  let name? (t : Token) : Option String :=
    match t.kind with
    | .identifier name => some name
    | _ => none
  match s.kind with
  | .keyword .«function» => name? (if s.second.kind == .star then s.third else s.second)
  | .keyword .«class» => name? s.second
  | _ => none

/-- Consumes the given token. -/
def expect (kind : Token.Kind) (s : TokenStream) : Except SyntaxFault (Token × TokenStream) :=
  if s.kind = kind then .ok (s.current, s.advance) else .error (s.unexpected (.token kind))

/-- Consumes the given identifier. -/
def expectWord (word : String) (s : TokenStream) : Except SyntaxFault TokenStream :=
  if s.atWord word then .ok s.advance else .error (s.unexpected (.word word))

/-- Consumes an identifier. -/
def expectIdentifier (s : TokenStream) : Except SyntaxFault (String × TokenStream) :=
  match s.kind with
  | .identifier name => .ok (name, s.advance)
  | _ => .error (s.unexpected .identifier)

/-- Consumes an imported or exported name: any word, reserved or not, or a string. -/
def expectExportName (s : TokenStream) : Except SyntaxFault (String × TokenStream) :=
  match s.kind with
  | .identifier name => .ok (name, s.advance)
  | .string name => .ok (name, s.advance)
  | .keyword k => .ok (k.word, s.advance)
  | _ => .error (s.unexpected .exportName)

/-- Consumes a specifier. -/
def expectSpecifier (s : TokenStream) : Except SyntaxFault (Specifier × TokenStream) :=
  match s.kind with
  | .string url => .ok (.url url, s.advance)
  | .identifier name => .ok (.fragment name, s.advance)
  | _ => .error (s.unexpected .specifier)

/-- The place of the first closing brace, the current token included, or of the end of input. -/
def toRightBrace (previous : Option Token) (current : Token) : List Token → TokenStream
  | [] => ⟨previous, current, []⟩
  | t :: ts =>
    if current.kind = .rightBrace ∨ current.kind = .endOfInput then ⟨previous, current, t :: ts⟩
    else toRightBrace (some current) t ts

/-- Consumes import attributes if there are any: `with` or `assert` on the same line with an
opening brace, and everything up to the first closing one. -/
def skipAttributes (s : TokenStream) : Except SyntaxFault TokenStream :=
  if (s.atKeyword .«with» || s.atWord "assert") && !s.current.newlineBefore
      && s.second.kind == .leftBrace then
    let body := s.advance.advance
    let close := toRightBrace body.previous body.current body.ahead
    if close.kind = .rightBrace then .ok close.advance else .error (close.fault .unclosedAttributes)
  else .ok s

/-- Ends a statement: at a semicolon, which is consumed, before a closing brace or the end of
input, or before a token on a new line. The result holds the last token of the statement. -/
def endStatement (s : TokenStream) : Except SyntaxFault (Token × TokenStream) :=
  match s.kind with
  | .semicolon => .ok (s.current, s.advance)
  | .rightBrace | .endOfInput => .ok (s.previous.getD s.current, s)
  | _ =>
    if s.current.newlineBefore then .ok (s.previous.getD s.current, s)
    else .error (s.unexpected .semicolon)

end TokenStream

end ModuleGraph
