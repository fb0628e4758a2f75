import ModuleGraph.Token

/-!
# The names a variable declaration binds

`boundNames` lists the names that the patterns of a `let`, `const` or `var` declaration bind, in
source order. Initializers, default values and computed keys are skipped bracket by bracket and
never looked into. The readers of patterns take the token kinds ahead and return the rest; their
first argument bounds the depth of recursion, and `boundNames` gives them more than the tokens can
use.
-/

namespace ModuleGraph

open Token (Kind)

/-- Skips a group of brackets that is `depth` levels deep, including its closing bracket. -/
def skipGroup : (depth : Nat) → List Kind → List Kind
  | _, [] => []
  | depth, k :: ks =>
    if k.isOpenBracket then skipGroup (depth + 1) ks
    else if k.isCloseBracket then if depth ≤ 1 then ks else skipGroup (depth - 1) ks
    else skipGroup depth ks

/-- Skips an expression that is `depth` brackets deep, up to the comma, semicolon or closing
bracket that ends it. -/
def skipExpression : (depth : Nat) → List Kind → List Kind
  | _, [] => []
  | 0, k :: ks =>
    if k = .comma ∨ k = .semicolon ∨ k.isCloseBracket then k :: ks
    else skipExpression (if k.isOpenBracket then 1 else 0) ks
  | depth + 1, k :: ks =>
    if k.isOpenBracket then skipExpression (depth + 2) ks
    else if k.isCloseBracket then skipExpression depth ks
    else skipExpression (depth + 1) ks

/-- Skips an initializer or default value if one comes next. -/
def skipInitializer : List Kind → List Kind
  | .equal :: ks => skipExpression 0 ks
  | ks => ks

mutual

/-- The names of a pattern. -/
def patternNames : Nat → List Kind → List String × List Kind
  | 0, ks => ([], ks)
  | _ + 1, .identifier name :: ks => ([name], ks)
  | n + 1, .leftBrace :: ks => propertiesNames n ks
  | n + 1, .leftBracket :: ks => elementsNames n ks
  | _ + 1, ks => ([], ks.drop 1)

/-- The names of an object pattern, after its opening brace. -/
def propertiesNames : Nat → List Kind → List String × List Kind
  | 0, ks => ([], ks)
  | _ + 1, [] => ([], [])
  | _ + 1, .rightBrace :: ks => ([], ks)
  | n + 1, ks =>
    let (names, rest) := propertyNames n ks
    match skipInitializer rest with
    | .comma :: rest =>
      let (more, rest) := propertiesNames n rest
      (names ++ more, rest)
    | rest => (names, rest.drop 1)

/-- The names of one property: a rest element, a computed key with its value, a shorthand name, or
another key with its value. -/
def propertyNames : Nat → List Kind → List String × List Kind
  | 0, ks => ([], ks)
  | n + 1, .operator text :: ks =>
    if text = "..." then patternNames n ks else valueNames n ks
  | n + 1, .leftBracket :: ks => valueNames n (skipGroup 1 ks)
  | n + 1, .identifier name :: ks =>
    if ks.head? = some (.operator ":") then valueNames n ks else ([name], ks)
  | n + 1, ks => valueNames n (ks.drop 1)

/-- The names of a property's value, if there is one. -/
def valueNames : Nat → List Kind → List String × List Kind
  | n + 1, .operator text :: ks =>
    if text = ":" then patternNames n ks else ([], .operator text :: ks)
  | _, ks => ([], ks)

/-- The names of an array pattern, after its opening bracket. -/
def elementsNames : Nat → List Kind → List String × List Kind
  | 0, ks => ([], ks)
  | _ + 1, [] => ([], [])
  | _ + 1, .rightBracket :: ks => ([], ks)
  | n + 1, .comma :: ks => elementsNames n ks
  | n + 1, ks =>
    let (names, rest) :=
      patternNames n (if ks.head? = some (.operator "...") then ks.drop 1 else ks)
    match skipInitializer rest with
    | .comma :: rest =>
      let (more, rest) := elementsNames n rest
      (names ++ more, rest)
    | rest => (names, rest.drop 1)

end

/-- The names of declarators separated by commas. -/
def declaratorsNames : Nat → List Kind → List String
  | 0, _ => []
  | n + 1, ks =>
    let (names, rest) := patternNames n ks
    match skipInitializer rest with
    | .comma :: rest => names ++ declaratorsNames n rest
    | _ => names

/-- The names that a variable declaration binds; none for other tokens. -/
def boundNames : List Kind → List String
  | .keyword k :: ks =>
    if k = .«let» ∨ k = .«const» ∨ k = .«var» then declaratorsNames (3 * ks.length + 3) ks else []
  | _ => []

end ModuleGraph
