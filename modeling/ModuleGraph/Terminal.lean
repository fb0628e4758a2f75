/-!
# Styled text

Text for a terminal. A style is switched on before a text and off after it by control sequences;
styles nest.
-/

namespace ModuleGraph.Terminal

/-- A colour or weight of text. -/
inductive Style where
  | red
  | green
  | cyan
  | white
  | bold
  | dimmed
deriving DecidableEq, Repr

/-- The control sequence with a number. -/
def control (n : Nat) : String :=
  "\x1b[" ++ toString n ++ "m"

namespace Style

/-- The number that switches a style on. -/
def on : Style → Nat
  | .red => 31
  | .green => 32
  | .cyan => 36
  | .white => 37
  | .bold => 1
  | .dimmed => 2

/-- The number that switches a style off: colours and weights apart. -/
def off : Style → Nat
  | .bold | .dimmed => 0
  | _ => 39

/-- A text in a style. -/
def paint (style : Style) (text : String) : String :=
  control style.on ++ text ++ control style.off

end Style

/-- A text with blanks before it, at least `width` characters long. -/
def padLeft (width : Nat) (text : String) : String :=
  "".pushn ' ' (width - text.length) ++ text

/-- A text with blanks behind it, at least `width` characters long. -/
def padRight (width : Nat) (text : String) : String :=
  text ++ "".pushn ' ' (width - text.length)

end ModuleGraph.Terminal
