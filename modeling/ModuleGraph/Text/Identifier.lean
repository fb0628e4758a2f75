import ModuleGraph.Text.IdentifierRanges

/-!
# Identifier names

An identifier name starts with a character of XID_Start, `_` or `$` and continues with characters
of XID_Continue, `_` or `$`. `Text.isIdentifierContinue_of_isIdentifierStart` says that the second
class contains the first.
-/

namespace ModuleGraph.Text

/-- A character that can start an identifier name. -/
def isIdentifierStart (c : Char) : Bool :=
  if c.toNat < 0x80 then c.isAlpha || c == '_' || c == '$'
  else inRanges identifierStartRanges c.toNat

/-- A character that can continue an identifier name. -/
def isIdentifierContinue (c : Char) : Bool :=
  isIdentifierStart c ||
    if c.toNat < 0x80 then c.isDigit else inRanges identifierExtenderRanges c.toNat

/-- Characters that form an identifier name. -/
def isIdentifierName : List Char → Bool
  | [] => false
  | c :: cs => isIdentifierStart c && cs.all isIdentifierContinue

theorem isIdentifierContinue_of_isIdentifierStart {c : Char} (h : isIdentifierStart c = true) :
    isIdentifierContinue c = true := by
  simp [isIdentifierContinue, h]

end ModuleGraph.Text
