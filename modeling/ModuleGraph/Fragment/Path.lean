import ModuleGraph.Text.Identifier

/-!
# Fragment paths

A path leads from the top-level module of a resource to one of its fragments. Its segments are the
names of declared fragments, and `%n` for the `n`-th inline module of a body.
-/

namespace ModuleGraph

/-- The segments from the top-level module, outermost first. -/
abbrev FragmentPath := List String

namespace FragmentPath

/-- The path of what is declared directly inside. -/
def child (path : FragmentPath) (segment : String) : FragmentPath :=
  path ++ [segment]

/-- The segment of the inline module with the given ordinal. -/
def inlineSegment (ordinal : Nat) : String :=
  "%" ++ toString ordinal

/-- Whether characters spell a segment: an identifier name, or `%` and decimal digits. -/
def isSegment : List Char → Bool
  | '%' :: digits => !digits.isEmpty && digits.all Char.isDigit
  | name => Text.isIdentifierName name

/-- The path with slashes between its segments. -/
def text (path : FragmentPath) : String :=
  "/".intercalate path

/-- The body at a path, as error messages name it. -/
def describe (path : FragmentPath) : String :=
  if path.isEmpty then "the top-level module" else "fragment " ++ path.text

end FragmentPath

end ModuleGraph
