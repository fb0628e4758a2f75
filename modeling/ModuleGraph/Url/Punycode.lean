/-!
# Punycode

Text beyond ASCII written in ASCII letters and digits. The ASCII characters come first, with a
hyphen behind them. Then each other character is given by the steps from the one before it, where a
step goes to the next place in the text, or from the last place to the first and to the next code
point. The number of steps is written in digits whose bounds adapt to the numbers before it.

`Punycode.decode?` reads such a text, and `Punycode.encode` writes it.
-/

namespace ModuleGraph.Punycode

/-- The bound of the digit at a place, counted from one: a digit below it is the last. -/
def threshold (bias place : Nat) : Nat :=
  if 36 * place ≤ bias then 1
  else if bias + 26 ≤ 36 * place then 26
  else 36 * place - bias

/-- A digit has a bound of one at least. -/
theorem threshold_pos (bias place : Nat) : 1 ≤ threshold bias place := by
  unfold threshold
  split
  · exact Nat.le_refl 1
  · split <;> omega

/-- A digit has a bound of twenty-six at most. -/
theorem threshold_le (bias place : Nat) : threshold bias place ≤ 26 := by
  unfold threshold
  split
  · omega
  · split <;> omega

/-- Divides a number until it is small, and counts the divisions. -/
def scaleDown (n : Nat) : Nat × Nat :=
  if 455 < n then
    let (rest, steps) := scaleDown (n / 35)
    (rest, steps + 1)
  else (n, 0)
termination_by n
decreasing_by exact Nat.div_lt_self (by omega) (by omega)

/-- The bias after a number of steps. `count` characters are known then. -/
def adapt (steps count : Nat) (isFirst : Bool) : Nat :=
  let damped := if isFirst then steps / 700 else steps / 2
  let (rest, scale) := scaleDown (damped + damped / count)
  36 * scale + 36 * rest / (rest + 38)

/-- The value of a digit: letters of either case come before the decimal digits. -/
def digit? (c : Char) : Option Nat :=
  if c.isLower then some (c.toNat - 'a'.toNat)
  else if c.isUpper then some (c.toNat - 'A'.toNat)
  else if c.isDigit then some (c.toNat - '0'.toNat + 26)
  else none

/-- The digit of a value below thirty-six. -/
def digit (n : Nat) : Char :=
  if n < 26 then Char.ofNat ('a'.toNat + n) else Char.ofNat ('0'.toNat + (n - 26))

/-! ## Reading -/

/-- The bound of the numbers that digits spell and of the weights of digits: both fit in 32 bits. -/
def wordLimit : Nat :=
  Nat.pow 2 32

/-- The sum of a number and of the number that digits from a place on spell, and what follows
them. -/
def steps? (bias : Nat) : (place weight sum : Nat) → List Char → Option (Nat × List Char)
  | _, _, _, [] => none
  | place, weight, sum, c :: cs =>
    match digit? c with
    | none => none
    | some d =>
      let bound := threshold bias place
      let newSum := sum + d * weight
      let newWeight := weight * (36 - bound)
      if wordLimit ≤ newSum then none
      else if d < bound then some (newSum, cs)
      else if wordLimit ≤ newWeight then none
      else steps? bias (place + 1) newWeight newSum cs

/-- A number of steps takes a digit at least. -/
theorem steps?_lt {bias place weight sum n : Nat} {cs rest : List Char}
    (h : steps? bias place weight sum cs = some (n, rest)) : rest.length < cs.length := by
  induction cs generalizing place weight sum with
  | nil => simp [steps?] at h
  | cons c cs ih =>
    simp only [steps?] at h
    split at h
    · simp at h
    · split at h
      · simp at h
      · split at h
        · simp only [Option.some.injEq, Prod.mk.injEq] at h
          rw [← h.2]
          exact Nat.lt_succ_self _
        · split at h
          · simp at h
          · exact Nat.lt_succ_of_lt (ih h)

/-- The character of a code point. -/
def char? (n : Nat) : Option Char :=
  if h : n.isValidChar then some (Char.ofNatAux n h) else none

/-- Puts the characters in whose steps a text spells. `known` holds those that are known, `place` is
the next place among them, zero only at the start, and `code` the code point that the steps start
from. -/
def insertAll? (bias code place : Nat) (known : List Char) (cs : List Char) :
    Option (List Char) :=
  if cs.isEmpty then some known
  else
    match _h : steps? bias 1 1 place cs with
    | none => none
    | some (sum, rest) =>
      let count := known.length + 1
      let newCode := code + sum / count
      let newPlace := sum % count
      match char? newCode with
      | none => none
      | some c =>
        insertAll? (adapt (sum - place) count (place == 0)) newCode (newPlace + 1)
          (known.insertIdx newPlace c) rest
termination_by cs.length
decreasing_by exact steps?_lt _h

/-- The characters before the last hyphen, and those behind it. A hyphen at the start is kept. -/
def splitLast (cs : List Char) : List Char × List Char :=
  let last := (cs.reverse.takeWhile (· != '-')).reverse
  match cs.reverse.dropWhile (· != '-') with
  | _ :: c :: before => ((c :: before).reverse, last)
  | _ => ([], cs)

/-- The text that an encoded text stands for. -/
def decode? (cs : List Char) : Option (List Char) :=
  let (known, rest) := splitLast cs
  if known.any (0x80 ≤ ·.toNat) then none else insertAll? 72 0x80 0 known rest

/-! ## Writing -/

/-- The digits of a number of steps, from a place on. -/
def stepDigits (bias place n : Nat) : List Char :=
  let bound := threshold bias place
  if n < bound then [digit n]
  else digit (bound + (n - bound) % (36 - bound))
    :: stepDigits bias (place + 1) ((n - bound) / (36 - bound))
termination_by n
decreasing_by
  have := threshold_pos bias place
  exact Nat.lt_of_le_of_lt (Nat.div_le_self _ _) (by omega)

/-- The state of writing: how many characters are written, the steps since the last one, and the
bias. -/
structure Writing where
  count : Nat
  steps : Nat
  bias : Nat
  isFirst : Bool
  digits : List Char

namespace Writing

/-- Goes past a character of the text, on the way to those with a code point. -/
def pass (code : Nat) (w : Writing) (c : Char) : Writing :=
  if c.toNat < code then { w with steps := w.steps + 1 }
  else if c.toNat = code then
    { count := w.count + 1
      steps := 0
      bias := adapt w.steps (w.count + 1) w.isFirst
      isFirst := false
      digits := w.digits ++ stepDigits w.bias 1 w.steps }
  else w

/-- Writes the characters with a code point; `last` is the code point before it. -/
def write (text : List Char) (state : Writing × Nat) (code : Nat) : Writing × Nat :=
  let (w, last) := state
  let w := { w with steps := w.steps + (code - last) * (w.count + 1) }
  let w := text.foldl (pass code) w
  ({ w with steps := w.steps + 1 }, code + 1)

end Writing

/-- The encoded form of a text. -/
def encode (text : List Char) : List Char :=
  let known := text.filter (·.toNat < 0x80)
  let codes := ((text.filter (0x80 ≤ ·.toNat)).map Char.toNat).mergeSort.eraseReps
  let start : Writing := ⟨known.length, 0, 72, true, []⟩
  (if known.isEmpty then [] else known ++ ['-'])
    ++ (codes.foldl (Writing.write text) (start, 0x80)).1.digits

end ModuleGraph.Punycode
