import ModuleGraph.Text.CompositionTables

/-!
# Composed text

The canonical composition of a text: marks behind a character stand in the order of their classes,
and a character is written as one with its marks where there is such a character. Syllables of the
Korean alphabet are composed by counting.
-/

namespace ModuleGraph.Text

/-- The combining class of a character; starters have class zero. -/
def combiningClass (c : Char) : Nat :=
  match combiningClasses.row? c.toNat with
  | some row => row.numbers.headD 0
  | none => 0

/-! ## Korean syllables -/

namespace Syllable

/-- The first syllable. -/
def first : Nat :=
  0xAC00

/-- The letters that a syllable is composed of. -/
def letters? (c : Char) : Option (List Char) :=
  let n := c.toNat - first
  if c.toNat < first || 11172 ≤ n then none
  else
    let start := [Char.ofNat (0x1100 + n / 588), Char.ofNat (0x1161 + n % 588 / 28)]
    if n % 28 = 0 then some start else some (start ++ [Char.ofNat (0x11A7 + n % 28)])

/-- The syllable of two letters, or of a syllable of two letters and a third. -/
def compose? (a b : Char) : Option Char :=
  if 0x1100 ≤ a.toNat && a.toNat < 0x1113 && 0x1161 ≤ b.toNat && b.toNat < 0x1176 then
    some (Char.ofNat (first + (a.toNat - 0x1100) * 588 + (b.toNat - 0x1161) * 28))
  else if first ≤ a.toNat && a.toNat < first + 11172 && (a.toNat - first) % 28 == 0
      && 0x11A7 < b.toNat && b.toNat < 0x11C3 then
    some (Char.ofNat (a.toNat + (b.toNat - 0x11A7)))
  else none

end Syllable

/-! ## Taking apart -/

/-- The two characters that a composed character stands for. -/
def parts? (c : Char) : Option (Char × Char) :=
  match compositions.row? c.toNat with
  | some ⟨_, 'r', [a, b]⟩ => some (Char.ofNat a, Char.ofNat b)
  | _ => none

/-- The characters that a character is composed of. The first part may be composed again, at most
`depth` times. -/
def takeApart : (depth : Nat) → Char → List Char
  | 0, c => [c]
  | n + 1, c =>
    match parts? c with
    | some (a, b) => takeApart n a ++ [b]
    | none => (Syllable.letters? c).getD [c]

/-- Sorts the marks behind each starter by their classes. -/
def orderMarks : List Char → List Char
  | [] => []
  | c :: cs =>
    let rest := orderMarks cs
    if combiningClass c = 0 then c :: rest
    else
      let later (d : Char) := combiningClass d != 0 && combiningClass d < combiningClass c
      rest.takeWhile later ++ c :: rest.dropWhile later

/-- A text taken apart, its marks in order. -/
def decomposed (cs : List Char) : List Char :=
  orderMarks (cs.flatMap (takeApart 4))

/-! ## Putting together -/

/-- All composed characters with their parts. -/
def composedPairs : List ((Char × Char) × Char) :=
  compositions.rows.toList.filterMap fun row =>
    match row with
    | ⟨n, 'r', [a, b]⟩ => some ((Char.ofNat a, Char.ofNat b), Char.ofNat n)
    | _ => none

/-- The character composed of two. -/
def compose? (a b : Char) : Option Char :=
  (Syllable.compose? a b).or (composedPairs.lookup (a, b))

/-- Puts a starter together with what follows it. `between` holds, last first, the characters since
the starter that stay, and one of a class not below that of their last is kept from the starter. -/
def putTogether (starter : Char) (between : List Char) : List Char → List Char
  | [] => starter :: between.reverse
  | c :: cs =>
    let reaches :=
      match between with
      | [] => true
      | last :: _ => combiningClass last < combiningClass c
    match if reaches then compose? starter c else none with
    | some composed => putTogether composed between cs
    | none =>
      if combiningClass c = 0 then starter :: between.reverse ++ putTogether c [] cs
      else putTogether starter (c :: between) cs

/-- The canonical composition of a text. -/
def composed (cs : List Char) : List Char :=
  let cs := decomposed cs
  let isMark (c : Char) := combiningClass c != 0
  cs.takeWhile isMark ++
    match cs.dropWhile isMark with
    | [] => []
    | starter :: rest => putTogether starter [] rest

end ModuleGraph.Text
