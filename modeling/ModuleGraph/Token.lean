import ModuleGraph.Text.Span
import ModuleGraph.Token.Keyword

/-!
# Tokens

The tokens that module declarations are read from. Operators that declarations never use share
one kind. `Token.Kind.endsExpression` is the rule that tells a division from the start of a regular
expression, and `Token.Kind.describe` names a token in an error message.
-/

namespace ModuleGraph

/-- Why a stretch of text is no token. -/
inductive LexicalFault where
  | unterminatedString
  | unterminatedTemplate
  | unterminatedSubstitution
  | unterminatedRegExp
  | escapedIdentifier
  | unexpected (character : Char)
deriving DecidableEq, Repr

/-- The message of a lexical fault. -/
def LexicalFault.message : LexicalFault → String
  | .unterminatedString => "unterminated string literal"
  | .unterminatedTemplate => "unterminated template literal"
  | .unterminatedSubstitution => "unterminated template substitution"
  | .unterminatedRegExp => "unterminated regular expression"
  | .escapedIdentifier => "unicode escapes in identifiers are not supported"
  | .unexpected c => "unexpected character '" ++ String.singleton c ++ "'"

/-- What a token is. Numbers and templates are kept as written, strings are decoded. -/
inductive Token.Kind where
  | number (text : String)
  | string (value : String)
  | template (text : String)
  | regExp (pattern flags : String)
  | identifier (name : String)
  | privateIdentifier (name : String)
  | keyword (word : Keyword)
  | leftBrace
  | rightBrace
  | leftParen
  | rightParen
  | leftBracket
  | rightBracket
  | dot
  | semicolon
  | comma
  | star
  | equal
  | operator (text : String)
  | endOfInput
  | invalid (fault : LexicalFault)
deriving DecidableEq, Repr

/-- A token with its place. `newlineBefore` tells whether a line ends between the token before it
and the token. -/
structure Token where
  kind : Token.Kind
  span : Span
  newlineBefore : Bool
deriving DecidableEq, Repr

namespace Token.Kind

/-- Whether an expression can end with the token; a `/` after it divides. -/
def endsExpression : Kind → Bool
  | .number _ | .string _ | .template _ | .regExp _ _ | .identifier _ | .privateIdentifier _
  | .rightParen | .rightBracket | .rightBrace => true
  | .operator text => text == "++" || text == "--"
  | .keyword word => word.isOperand
  | _ => false

/-- Whether the token opens a pair of brackets. -/
def isOpenBracket : Kind → Bool
  | .leftBrace | .leftParen | .leftBracket => true
  | _ => false

/-- Whether the token closes a pair of brackets. -/
def isCloseBracket : Kind → Bool
  | .rightBrace | .rightParen | .rightBracket => true
  | _ => false

/-- The token's name in an error message. -/
def describe : Kind → String
  | .number text => "number " ++ text
  | .string value => "string '" ++ value ++ "'"
  | .template _ => "template literal"
  | .regExp _ _ => "regular expression"
  | .identifier name => "identifier '" ++ name ++ "'"
  | .privateIdentifier name => "private name '#" ++ name ++ "'"
  | .keyword word => "keyword '" ++ word.word ++ "'"
  | .leftBrace => "'\x7b'"
  | .rightBrace => "'\x7d'"
  | .leftParen => "'('"
  | .rightParen => "')'"
  | .leftBracket => "'['"
  | .rightBracket => "']'"
  | .dot => "'.'"
  | .semicolon => "';'"
  | .comma => "','"
  | .star => "'*'"
  | .equal => "'='"
  | .operator text => "'" ++ text ++ "'"
  | .endOfInput => "end of input"
  | .invalid fault => fault.message

end Token.Kind

/-- Whether the token is the given identifier. Words such as `module`, `from` and `as` are
identifiers that mean something only where a declaration expects them. -/
def Token.isWord (word : String) (t : Token) : Bool :=
  t.kind == .identifier word

end ModuleGraph
