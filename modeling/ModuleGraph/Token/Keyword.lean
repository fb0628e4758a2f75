/-!
# Reserved words

The forty words that can name nothing, and the rule that decides whether a `/` after one of them
divides. `Keyword.ofWord?_eq_some_iff` says that looking a word up inverts `Keyword.word`.
-/

namespace ModuleGraph

/-- A reserved word. -/
inductive Keyword where
  | «await» | «break» | «case» | «catch» | «class» | «const» | «continue» | «debugger»
  | «default» | «delete» | «do» | «else» | «enum» | «export» | «extends» | «false» | «finally»
  | «for» | «function» | «if» | «import» | «in» | «instanceof» | «let» | «new» | «null»
  | «return» | «static» | «super» | «switch» | «this» | «throw» | «true» | «try» | «typeof»
  | «var» | «void» | «while» | «with» | «yield»
deriving DecidableEq, Repr

namespace Keyword

/-- The spelling of a reserved word. -/
def word : Keyword → String
  | .«await» => "await"
  | .«break» => "break"
  | .«case» => "case"
  | .«catch» => "catch"
  | .«class» => "class"
  | .«const» => "const"
  | .«continue» => "continue"
  | .«debugger» => "debugger"
  | .«default» => "default"
  | .«delete» => "delete"
  | .«do» => "do"
  | .«else» => "else"
  | .«enum» => "enum"
  | .«export» => "export"
  | .«extends» => "extends"
  | .«false» => "false"
  | .«finally» => "finally"
  | .«for» => "for"
  | .«function» => "function"
  | .«if» => "if"
  | .«import» => "import"
  | .«in» => "in"
  | .«instanceof» => "instanceof"
  | .«let» => "let"
  | .«new» => "new"
  | .«null» => "null"
  | .«return» => "return"
  | .«static» => "static"
  | .«super» => "super"
  | .«switch» => "switch"
  | .«this» => "this"
  | .«throw» => "throw"
  | .«true» => "true"
  | .«try» => "try"
  | .«typeof» => "typeof"
  | .«var» => "var"
  | .«void» => "void"
  | .«while» => "while"
  | .«with» => "with"
  | .«yield» => "yield"

/-- All reserved words. -/
def all : List Keyword :=
  [.«await», .«break», .«case», .«catch», .«class», .«const», .«continue», .«debugger»,
   .«default», .«delete», .«do», .«else», .«enum», .«export», .«extends», .«false», .«finally»,
   .«for», .«function», .«if», .«import», .«in», .«instanceof», .«let», .«new», .«null»,
   .«return», .«static», .«super», .«switch», .«this», .«throw», .«true», .«try», .«typeof»,
   .«var», .«void», .«while», .«with», .«yield»]

/-- The reserved word of a spelling. -/
def ofWord? (word : String) : Option Keyword :=
  all.find? fun k => k.word == word

/-- A reserved word that stands for a value, so that an expression can end with it. -/
def isOperand (k : Keyword) : Bool :=
  k ∈ [.«this», .«super», .«true», .«false», .«null»]

/-- All reserved words are listed. -/
theorem mem_all (k : Keyword) : k ∈ all := by
  cases k <;> simp [all]

/-- A reserved word is found by its spelling. -/
theorem ofWord?_word (k : Keyword) : ofWord? k.word = some k := by
  cases k <;> rfl

/-- Just the spelling of a reserved word is looked up as this word. -/
theorem ofWord?_eq_some_iff {word : String} {k : Keyword} :
    ofWord? word = some k ↔ k.word = word := by
  constructor
  · intro h
    simpa using List.find?_some h
  · rintro rfl
    exact ofWord?_word k

end Keyword

end ModuleGraph
