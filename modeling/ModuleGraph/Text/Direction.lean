import ModuleGraph.Text.DirectionTable

/-!
# Directions of labels

Which labels can be shown in a text of either direction without being taken for another. A label is
of the direction of its first character, and the other characters have to agree with it.
-/

namespace ModuleGraph.Text

/-- A bidirectional class: the strong ones of letters, the weak ones of digits and signs, and the
rest. -/
inductive Direction where
  | left
  | right
  | arabic
  | digit
  | sign
  | numberEnd
  | arabicDigit
  | separator
  | mark
  | boundary
  | neutral
  | other
deriving DecidableEq, Repr

namespace Direction

/-- The class that a letter of the table stands for. -/
def ofLetter : Char → Direction
  | 'L' => .left
  | 'R' => .right
  | 'A' => .arabic
  | 'E' => .digit
  | 'S' => .sign
  | 'T' => .numberEnd
  | 'N' => .arabicDigit
  | 'C' => .separator
  | 'M' => .mark
  | 'B' => .boundary
  | 'O' => .neutral
  | _ => .other

/-- The class of a character. -/
def ofChar (c : Char) : Direction :=
  ((directionClasses.letter? c).map ofLetter).getD .left

/-- Whether the class belongs to text from right to left. -/
def isRightToLeft : Direction → Bool
  | .right | .arabic | .arabicDigit => true
  | _ => false

/-- Whether the class can stand in labels of either direction. -/
def isWeak : Direction → Bool
  | .digit | .sign | .separator | .numberEnd | .neutral | .boundary | .mark => true
  | _ => false

/-- Whether classes are those of a label from left to right. `last` is the last that is no mark. -/
def isLeftLabel (classes : List Direction) (last : Direction) : Bool :=
  classes.all (fun d => d == .left || d.isWeak) && (last == .left || last == .digit)

/-- Whether classes are those of a label from right to left, which has digits of one kind. -/
def isRightLabel (classes : List Direction) (last : Direction) : Bool :=
  classes.all (fun d => d.isRightToLeft || d.isWeak)
    && (last.isRightToLeft || last == .digit)
    && !(classes.contains .digit && classes.contains .arabicDigit)

/-- Whether classes are those of a label that can be shown in either direction. -/
def isLabel (classes : List Direction) : Bool :=
  let last := ((classes.reverse.dropWhile (· == .mark)).head?).getD .mark
  match classes with
  | [] => true
  | .left :: _ => isLeftLabel classes last
  | .right :: _ | .arabic :: _ => isRightLabel classes last
  | _ => false

end Direction

end ModuleGraph.Text
