import ModuleGraph.Text.Split

/-!
# Tables of character properties

A property of characters is written as a text of rows. A row is the number of code points that it is
for, a letter for their common value, and perhaps more numbers with points between them; all numbers
are hexadecimal in lower case, and no letter is such a digit. The rows follow each other without
gaps. `PropertyTable.row?` finds the row of a code point.
-/

namespace ModuleGraph.Text

/-- A row of a table: the first code point that it is for, the letter of the value, and the numbers
behind it. -/
structure PropertyRow where
  first : Nat
  letter : Char
  numbers : List Nat

/-- The rows of a table, in the order of their code points. -/
structure PropertyTable where
  rows : Array PropertyRow

namespace PropertyTable

/-- The value of a lower-case hexadecimal digit. -/
def digit? (c : Char) : Option Nat :=
  if c.isDigit then some (c.toNat - '0'.toNat)
  else if 'a' ≤ c && c ≤ 'f' then some (c.toNat - 'a'.toNat + 10)
  else none

/-- The number that hexadecimal digits spell. -/
def number (cs : List Char) : Nat :=
  cs.foldl (fun n c => 16 * n + (digit? c).getD 0) 0

/-- The numbers with points between them. -/
def numbers (cs : List Char) : List Nat :=
  if cs.isEmpty then [] else (splitWhere (· == '.') cs).map number

/-- Adds the row that a word stands for; `next` is its first code point. -/
def addRow (table : Array PropertyRow × Nat) (word : List Char) : Array PropertyRow × Nat :=
  let (rows, next) := table
  match word.dropWhile fun c => (digit? c).isSome with
  | letter :: rest =>
    let count := number (word.takeWhile fun c => (digit? c).isSome)
    (rows.push ⟨next, letter, numbers rest⟩, next + count)
  | [] => (rows, next)

/-- The table that a text stands for, from a code point on. -/
def ofText (first : Nat) (text : String) : PropertyTable :=
  let words := splitWhere (fun c => c == ' ' || c == '\n') text.toList
  ⟨(words.foldl addRow (#[], first)).1⟩

/-- The number of rows that start at a code point or before it, where the first `low` rows do and
those from `high` on do not. -/
def countUpTo (rows : Array PropertyRow) (n low high : Nat) : Nat :=
  if _h : low < high then
    let middle := (low + high) / 2
    match rows[middle]? with
    | some row => if row.first ≤ n then countUpTo rows n (middle + 1) high
      else countUpTo rows n low middle
    | none => low
  else low
termination_by high - low
decreasing_by all_goals omega

/-- The row of a code point. -/
def row? (table : PropertyTable) (n : Nat) : Option PropertyRow :=
  match countUpTo table.rows n 0 table.rows.size with
  | 0 => none
  | k + 1 => table.rows[k]?

/-- The letter of a code point's value. -/
def letter? (table : PropertyTable) (c : Char) : Option Char :=
  (table.row? c.toNat).map PropertyRow.letter

end PropertyTable

end ModuleGraph.Text
