import ModuleGraph.Token.Lexer

/-!
# JSON text

`Json.parse?` reads one JSON value. Members of an object keep their order; of members with the same
name only the last one counts, at the place of the first. Values nest less than `Json.depthLimit`
levels deep, and a number that exceeds the doubles when it is worked out as `Magnitude.overflows`
says is refused.
-/

namespace ModuleGraph

/-- A JSON value. Numbers are kept as written. -/
inductive Json where
  | null
  | boolean (value : Bool)
  | number (text : String)
  | string (value : String)
  | array (items : List Json)
  | object (members : List (String × Json))

namespace Json

/-- The nesting depth that is refused. -/
def depthLimit : Nat :=
  128

/-- Skips blanks. -/
def skipBlank (cs : List Char) : List Char :=
  cs.dropWhile fun c => c == ' ' || c == '\n' || c == '\t' || c == '\r'

/-- Four hexadecimal digits as a number. -/
def hex4? : List Char → Option (Nat × List Char)
  | a :: b :: c :: d :: cs => do
    let a ← Token.hexDigit? a
    let b ← Token.hexDigit? b
    let c ← Token.hexDigit? c
    let d ← Token.hexDigit? d
    some (a * 4096 + b * 256 + c * 16 + d, cs)
  | _ => none

/-- The character of an escape, after its backslash. Two escaped surrogates give one character, a
lone one none. -/
def escape? : List Char → Option (Char × List Char)
  | '"' :: cs => some ('"', cs)
  | '\\' :: cs => some ('\\', cs)
  | '/' :: cs => some ('/', cs)
  | 'b' :: cs => some ('\x08', cs)
  | 'f' :: cs => some ('\x0c', cs)
  | 'n' :: cs => some ('\n', cs)
  | 'r' :: cs => some ('\r', cs)
  | 't' :: cs => some ('\t', cs)
  | 'u' :: cs => do
    let (high, cs) ← hex4? cs
    if 0xD800 ≤ high ∧ high < 0xDC00 then
      match cs with
      | '\\' :: 'u' :: cs =>
        let (low, cs) ← hex4? cs
        if 0xDC00 ≤ low ∧ low < 0xE000 then
          some (Char.ofNat (0x10000 + (high - 0xD800) * 0x400 + (low - 0xDC00)), cs)
        else none
      | _ => none
    else if 0xDC00 ≤ high ∧ high < 0xE000 then none
    else some (Char.ofNat high, cs)
  | _ => none

/-- The rest of a string after its opening quote. `budget` exceeds the number of characters. -/
def stringTail? : (budget : Nat) → List Char → Option (List Char × List Char)
  | 0, _ | _, [] => none
  | n + 1, c :: cs =>
    if c = '"' then some ([], cs)
    else if c = '\\' then do
      let (c, cs) ← escape? cs
      let (value, cs) ← stringTail? n cs
      some (c :: value, cs)
    else if c.toNat < 0x20 then none
    else do
      let (value, cs) ← stringTail? n cs
      some (c :: value, cs)

/-! ## Numbers -/

/-- The value of a decimal digit. -/
def digitValue (c : Char) : Nat :=
  c.toNat - '0'.toNat

/-- The value of decimal digits. -/
def decimal (cs : List Char) : Nat :=
  cs.foldl (fun n c => n * 10 + digitValue c) 0

/-- A number with digits written behind it for as long as it fits in 64 bits, and the digits that
are left. -/
def appendDigits (n : Nat) : List Char → Nat × List Char
  | [] => (n, [])
  | c :: cs =>
    let next := n * 10 + digitValue c
    if next < Nat.pow 2 64 then appendDigits next cs else (n, c :: cs)

/-- The nearest number with at most 53 binary digits before its zeros; of two, the even one. -/
def round53 (n : Nat) : Nat :=
  if n < Nat.pow 2 53 then n
  else
    let unit := Nat.pow 2 (n.log2 - 52)
    let quotient := n / unit
    let remainder := 2 * (n % unit)
    let up := unit < remainder || (remainder == unit && quotient % 2 == 1)
    (if up then quotient + 1 else quotient) * unit

/-- A magnitude as it is worked out: a 64-bit number that a power of ten scales. -/
structure Magnitude where
  word : Nat
  exponent : Int
deriving DecidableEq, Repr

/-- The magnitude of digits before and after a point and an exponent. Of the digits before the point
that do not fit, only the number counts; of those after it, none. -/
def Magnitude.ofDigits (whole fraction : List Char) (exponent : Int) : Magnitude :=
  let (word, dropped) := appendDigits 0 whole
  let (word, ignored) := appendDigits word fraction
  ⟨word, exponent + dropped.length + ignored.length - fraction.length⟩

/-- Whether a magnitude exceeds the doubles. Its word and its power of ten are rounded to doubles,
and so is their product; a power above the doubles is enough, and division never exceeds them. -/
def Magnitude.overflows (m : Magnitude) : Bool :=
  if m.word = 0 ∨ m.exponent < 0 then false
  else if 308 < m.exponent then true
  else Nat.pow 2 1024 ≤ round53 (round53 m.word * round53 (Nat.pow 10 m.exponent.toNat))

/-- The whole part of a number: a zero alone, or digits that do not start with one. -/
def wholePart? (cs : List Char) : Option (List Char × List Char) :=
  match cs with
  | '0' :: cs =>
    match cs with
    | c :: _ => if c.isDigit then none else some (['0'], cs)
    | [] => some (['0'], [])
  | _ =>
    let digits := cs.takeWhile Char.isDigit
    if digits.isEmpty then none else some (digits, cs.dropWhile Char.isDigit)

/-- The digits after a point, if there is one. -/
def fractionPart? (cs : List Char) : Option (List Char × List Char) :=
  match cs with
  | '.' :: cs =>
    let digits := cs.takeWhile Char.isDigit
    if digits.isEmpty then none else some (digits, cs.dropWhile Char.isDigit)
  | _ => some ([], cs)

/-- The value of an exponent, if there is one. -/
def exponentPart? (cs : List Char) : Option (Int × List Char) :=
  match cs with
  | c :: cs =>
    if c = 'e' ∨ c = 'E' then
      let (negative, cs) :=
        match cs with
        | '-' :: cs => (true, cs)
        | '+' :: cs => (false, cs)
        | cs => (false, cs)
      let digits := cs.takeWhile Char.isDigit
      if digits.isEmpty then none
      else
        let value : Int := decimal digits
        some (if negative then -value else value, cs.dropWhile Char.isDigit)
    else some (0, c :: cs)
  | [] => some (0, [])

/-- A number without its sign. -/
def magnitude? (cs : List Char) : Option (List Char) := do
  let (whole, rest) ← wholePart? cs
  let (fraction, rest) ← fractionPart? rest
  let (exponent, rest) ← exponentPart? rest
  if (Magnitude.ofDigits whole fraction exponent).overflows then none else some rest

/-- A number as written. -/
def number? (cs : List Char) : Option (Json × List Char) := do
  let rest ←
    match cs with
    | '-' :: cs => magnitude? cs
    | cs => magnitude? cs
  some (.number (String.ofList (cs.take (cs.length - rest.length))), rest)

/-- The members with one more; a member of the same name gives up its value. -/
def addMember (members : List (String × Json)) (name : String) (value : Json) :
    List (String × Json) :=
  if members.any (·.1 == name) then
    members.map fun m => if m.1 == name then (name, value) else m
  else members ++ [(name, value)]

mutual

/-- A value. `depth` counts the values it is nested in. -/
def value? : (budget : Nat) → (depth : Nat) → List Char → Option (Json × List Char)
  | 0, _, _ => none
  | n + 1, depth, cs =>
    match skipBlank cs with
    | 'n' :: 'u' :: 'l' :: 'l' :: cs => some (.null, cs)
    | 't' :: 'r' :: 'u' :: 'e' :: cs => some (.boolean true, cs)
    | 'f' :: 'a' :: 'l' :: 's' :: 'e' :: cs => some (.boolean false, cs)
    | '"' :: cs => do
      let (value, cs) ← stringTail? (cs.length + 1) cs
      some (.string (String.ofList value), cs)
    | '[' :: cs =>
      if depthLimit ≤ depth + 1 then none
      else
        match skipBlank cs with
        | ']' :: cs => some (.array [], cs)
        | cs => do
          let (items, cs) ← items? n (depth + 1) cs
          some (.array items, cs)
    | '\x7b' :: cs =>
      if depthLimit ≤ depth + 1 then none
      else
        match skipBlank cs with
        | '\x7d' :: cs => some (.object [], cs)
        | cs => do
          let (members, cs) ← members? n (depth + 1) [] cs
          some (.object members, cs)
    | cs => number? cs

/-- The items of an array, up to and with its closing bracket. -/
def items? : (budget : Nat) → (depth : Nat) → List Char → Option (List Json × List Char)
  | 0, _, _ => none
  | n + 1, depth, cs => do
    let (item, cs) ← value? n depth cs
    match skipBlank cs with
    | ',' :: cs =>
      let (items, cs) ← items? n depth cs
      some (item :: items, cs)
    | ']' :: cs => some ([item], cs)
    | _ => none

/-- The members of an object, up to and with its closing brace, added to `members`. -/
def members? : (budget : Nat) → (depth : Nat) → (members : List (String × Json)) → List Char →
    Option (List (String × Json) × List Char)
  | 0, _, _, _ => none
  | n + 1, depth, members, cs =>
    match skipBlank cs with
    | '"' :: cs => do
      let (name, cs) ← stringTail? (cs.length + 1) cs
      match skipBlank cs with
      | ':' :: cs =>
        let (value, cs) ← value? n depth cs
        let members := addMember members (String.ofList name) value
        match skipBlank cs with
        | ',' :: cs => members? n depth members cs
        | '\x7d' :: cs => some (members, cs)
        | _ => none
      | _ => none
    | _ => none

end

/-- The value of a JSON text. -/
def parse? (text : String) : Option Json := do
  let cs := text.toList
  let (value, rest) ← value? (2 * cs.length + 2) 0 cs
  if (skipBlank rest).isEmpty then some value else none

/-- The member of an object with a name. -/
def member? (members : List (String × Json)) (name : String) : Option Json :=
  members.lookup name

end Json

end ModuleGraph
