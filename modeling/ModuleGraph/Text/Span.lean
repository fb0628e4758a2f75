/-!
# Byte spans of a text

Positions in a source text are byte offsets of its UTF-8 encoding; a text itself is handled as
the list of its characters. `Text.slice` cuts a span out of a text and `Text.lineColumn` turns an
offset into a line and a column. The main statements are `Text.dropBytes_append` and
`Text.takeBytes_append`: cutting at the end of a leading part separates exactly that part.
-/

namespace ModuleGraph

/-- A range of byte offsets: `start` is its first byte, `stop` the first byte after it. -/
structure Span where
  start : Nat
  stop : Nat
deriving DecidableEq, Repr, Inhabited

namespace Span

/-- The number of bytes a span covers. -/
def length (s : Span) : Nat :=
  s.stop - s.start

/-- A span that covers no byte. -/
def isEmpty (s : Span) : Bool :=
  s.start == s.stop

/-- The smallest span that covers both. -/
def cover (s t : Span) : Span :=
  ⟨min s.start t.start, max s.stop t.stop⟩

/-- The span moved `n` bytes to the right. -/
def shift (n : Nat) (s : Span) : Span :=
  ⟨s.start + n, s.stop + n⟩

@[simp] theorem cover_self (s : Span) : s.cover s = s := by
  simp [cover]

end Span

namespace Text

/-- The number of bytes that characters take in UTF-8. -/
def byteLength : List Char → Nat
  | [] => 0
  | c :: cs => c.utf8Size + byteLength cs

@[simp] theorem byteLength_append (a b : List Char) :
    byteLength (a ++ b) = byteLength a + byteLength b := by
  induction a with
  | nil => simp [byteLength]
  | cons c cs ih => simp [byteLength, ih, Nat.add_assoc]

/-- The characters that begin at byte offset `n` or later. -/
def dropBytes : Nat → List Char → List Char
  | _, [] => []
  | n, c :: cs => if n = 0 then c :: cs else dropBytes (n - c.utf8Size) cs

/-- The characters that begin before byte offset `n`. -/
def takeBytes : Nat → List Char → List Char
  | _, [] => []
  | n, c :: cs => if n = 0 then [] else c :: takeBytes (n - c.utf8Size) cs

/-- The part of a text that a span covers. -/
def slice (chars : List Char) (s : Span) : List Char :=
  takeBytes s.length (dropBytes s.start chars)

@[simp] theorem dropBytes_zero (cs : List Char) : dropBytes 0 cs = cs := by
  cases cs <;> simp [dropBytes]

@[simp] theorem takeBytes_zero (cs : List Char) : takeBytes 0 cs = [] := by
  cases cs <;> simp [takeBytes]

/-- Dropping the bytes of a leading part leaves the rest. -/
theorem dropBytes_append (a b : List Char) : dropBytes (byteLength a) (a ++ b) = b := by
  induction a with
  | nil => simp [byteLength]
  | cons c cs ih =>
    have := c.utf8Size_pos
    simp [byteLength, dropBytes, ih]
    omega

/-- Taking the bytes of a leading part gives this part. -/
theorem takeBytes_append (a b : List Char) : takeBytes (byteLength a) (a ++ b) = a := by
  induction a with
  | nil => simp [byteLength]
  | cons c cs ih =>
    have := c.utf8Size_pos
    simp [byteLength, takeBytes, ih]
    omega

/-- The line and column of a byte offset when the text before it ends in line `line`, column
`column`. -/
def lineColumnFrom (line column : Nat) : List Char → Nat → Nat × Nat
  | [], _ => (line, column)
  | c :: cs, offset =>
    if offset < c.utf8Size then (line, column)
    else if c = '\n' then lineColumnFrom (line + 1) 1 cs (offset - c.utf8Size)
    else lineColumnFrom line (column + 1) cs (offset - c.utf8Size)

/-- The line and column of a byte offset, both counted from one. Only a line feed ends a line,
columns count characters, and an offset past the end stands for the end. -/
def lineColumn (chars : List Char) (offset : Nat) : Nat × Nat :=
  lineColumnFrom 1 1 chars offset

end Text

end ModuleGraph
