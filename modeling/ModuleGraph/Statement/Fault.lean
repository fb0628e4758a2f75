import ModuleGraph.Token

/-!
# Syntax errors

Why a source text is no module body, and the message for it. `SyntaxFault` says what is wrong and
where; `SyntaxError` adds the line and column that the place has in the text.
-/

namespace ModuleGraph

/-- What the reader was looking for when it met an unexpected token. -/
inductive Expectation where
  | nothing
  | importClause
  | exportClause
  | semicolon
  | specifier
  | identifier
  | exportName
  | word (word : String)
  | token (kind : Token.Kind)
deriving DecidableEq, Repr

/-- The wording of an expectation behind the unexpected token. -/
def Expectation.message : Expectation → String
  | .nothing => ""
  | .importClause => "in import declaration"
  | .exportClause => "after 'export'"
  | .semicolon => "expected ';'"
  | .specifier => "expected module specifier"
  | .identifier => "expected identifier"
  | .exportName => "expected export name"
  | .word w => "expected '" ++ w ++ "'"
  | .token kind => "expected " ++ kind.describe

/-- Why statements cannot be read. `budgetSpent` is the cause of a reader that was given too little
budget for its tokens; the budget that `SyntaxTree.parse` gives is enough. -/
inductive SyntaxCause where
  | lexical (fault : LexicalFault)
  | unexpected (kind : Token.Kind) (expectation : Expectation)
  | unclosedBody
  | unclosedBracket
  | unclosedAttributes
  | declaresNothing
  | budgetSpent
deriving DecidableEq, Repr

/-- The message of a cause. -/
def SyntaxCause.message : SyntaxCause → String
  | .lexical f => f.message
  | .unexpected kind .nothing => "unexpected " ++ kind.describe
  | .unexpected kind expectation => "unexpected " ++ kind.describe ++ " " ++ expectation.message
  | .unclosedBody => "unexpected end of input, expected '\x7d'"
  | .unclosedBracket => "unexpected end of input"
  | .unclosedAttributes => "unterminated import attributes"
  | .declaresNothing => "export declaration does not declare a name"
  | .budgetSpent => "declarations are nested too deeply"

/-- A cause and the span it is about. -/
structure SyntaxFault where
  cause : SyntaxCause
  span : Span
deriving DecidableEq, Repr

/-- A syntax error with the line and column of its span's start. -/
structure SyntaxError where
  cause : SyntaxCause
  span : Span
  line : Nat
  column : Nat
deriving DecidableEq, Repr

namespace SyntaxError

/-- The error for a fault in a text. -/
def ofFault (chars : List Char) (fault : SyntaxFault) : SyntaxError :=
  let place := Text.lineColumn chars fault.span.start
  ⟨fault.cause, fault.span, place.1, place.2⟩

/-- The error as it is shown. -/
def message (e : SyntaxError) : String :=
  "SyntaxError: " ++ e.cause.message ++ " (" ++ toString e.line ++ ":" ++ toString e.column ++ ")"

end SyntaxError

end ModuleGraph
