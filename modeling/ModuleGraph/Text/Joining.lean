import ModuleGraph.Text.Composition
import ModuleGraph.Text.JoiningTable

/-!
# Joiners

The two characters without width that join or part their neighbours. They are of use only behind a
sign that joins consonants, and the one that parts also between letters that would join.
-/

namespace ModuleGraph.Text

/-- The joiner without width. -/
def joiner : Char :=
  '\u200d'

/-- The parting character without width. -/
def nonJoiner : Char :=
  '\u200c'

/-- Whether a character joins the consonants around it. -/
def isConsonantJoiner (c : Char) : Bool :=
  combiningClass c == 9

/-- Whether a character has one of the joining types. -/
def hasJoiningType (types : List Char) (c : Char) : Bool :=
  (joiningTypes.letter? c).any types.contains

/-- Whether the first character that is not transparent has one of the joining types. -/
def firstJoins (types : List Char) (cs : List Char) : Bool :=
  ((cs.dropWhile (hasJoiningType ['T'])).head?).any (hasJoiningType types)

/-- Whether all joiners of a text are of use. `before` holds the characters before it, last
first. -/
def joinersAllowed (before : List Char) : List Char → Bool
  | [] => true
  | c :: cs =>
    let behindConsonant := before.head?.any isConsonantJoiner
    let allowed :=
      if c = joiner then behindConsonant
      else if c = nonJoiner then
        behindConsonant || (firstJoins ['L', 'D'] before && firstJoins ['R', 'D'] cs)
      else true
    allowed && joinersAllowed (c :: before) cs

end ModuleGraph.Text
