/-!
# Blank characters

`Text.isWhiteSpace` is the Unicode property White_Space and `Text.isLineTerminator` the four
characters that end a line of source text.
-/

namespace ModuleGraph.Text

/-- The Unicode property White_Space. -/
def isWhiteSpace (c : Char) : Bool :=
  let n := c.toNat
  (9 ≤ n && n ≤ 13) || n == 0x20 || n == 0x85 || n == 0xA0 || n == 0x1680
    || (0x2000 ≤ n && n ≤ 0x200A) || n == 0x2028 || n == 0x2029 || n == 0x202F
    || n == 0x205F || n == 0x3000

/-- Line feed, carriage return, line separator and paragraph separator. -/
def isLineTerminator (c : Char) : Bool :=
  c == '\n' || c == '\r' || c == '\u2028' || c == '\u2029'

/-- A character that separates tokens and belongs to none: white space or a byte order mark. -/
def isBlank (c : Char) : Bool :=
  isWhiteSpace c || c == '\uFEFF'

theorem isBlank_of_isLineTerminator {c : Char} (h : isLineTerminator c = true) :
    isBlank c = true := by
  simp only [isLineTerminator, Bool.or_eq_true, beq_iff_eq] at h
  rcases h with ((rfl | rfl) | rfl) | rfl <;> decide

end ModuleGraph.Text
