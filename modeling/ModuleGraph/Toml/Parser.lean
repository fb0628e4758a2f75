import ModuleGraph.Toml.Document
import ModuleGraph.Url.Percent

/-!
# Reading TOML

`Toml.parse?` reads a document. The readers below take characters and give what they have read with
the characters behind it, or nothing if there is a fault. Values nest less than `Toml.depthLimit`
levels deep, and dotted names have fewer parts than that.
-/

namespace ModuleGraph.Toml

/-- The nesting depth, and the number of parts of a name, that is refused. -/
def depthLimit : Nat :=
  80

/-! ## Blanks, comments and line ends -/

/-- A space or tab. -/
def isSpace (c : Char) : Bool :=
  c == ' ' || c == '\t'

/-- Skips spaces and tabs. -/
def skipSpace (cs : List Char) : List Char :=
  cs.dropWhile isSpace

/-- A character that may stand in a comment or string on one line: a tab, or anything that is no
control. -/
def isPlain (c : Char) : Bool :=
  c == '\t' || (0x20 ≤ c.toNat && c.toNat != 0x7F)

/-- What follows a line end. -/
def lineEnd? : List Char → Option (List Char)
  | '\n' :: cs => some cs
  | '\r' :: '\n' :: cs => some cs
  | _ => none

/-- What follows a comment, if there is one. -/
def skipComment (cs : List Char) : List Char :=
  match cs with
  | '#' :: cs => cs.dropWhile isPlain
  | cs => cs

/-- What follows the rest of a line that holds nothing more than a comment. -/
def lineRest? (cs : List Char) : Option (List Char) :=
  match skipComment (skipSpace cs) with
  | [] => some []
  | cs => lineEnd? cs

/-- Skips spaces, comments and line ends. `budget` exceeds the number of characters. -/
def skipLines : (budget : Nat) → List Char → List Char
  | 0, cs => cs
  | n + 1, cs =>
    match lineEnd? (skipComment (skipSpace cs)) with
    | some rest => skipLines n rest
    | none => skipSpace cs

/-! ## Strings -/

/-- The character with a number of `digits` hexadecimal digits. -/
def codePoint? (digits : Nat) (cs : List Char) : Option (Char × List Char) := do
  let ds ← (cs.take digits).mapM Token.hexDigit?
  let n := ds.foldl (fun n d => 16 * n + d) 0
  if ds.length = digits ∧ n.isValidChar then some (Char.ofNat n, cs.drop digits) else none

/-- The character of an escape, after its backslash. -/
def escape? : List Char → Option (Char × List Char)
  | 'b' :: cs => some ('\x08', cs)
  | 't' :: cs => some ('\t', cs)
  | 'n' :: cs => some ('\n', cs)
  | 'f' :: cs => some ('\x0c', cs)
  | 'r' :: cs => some ('\r', cs)
  | '"' :: cs => some ('"', cs)
  | '\\' :: cs => some ('\\', cs)
  | 'u' :: cs => codePoint? 4 cs
  | 'U' :: cs => codePoint? 8 cs
  | _ => none

/-- Skips spaces and line ends. -/
def skipBlank : List Char → List Char
  | '\r' :: '\n' :: cs => skipBlank cs
  | c :: cs => if isSpace c || c == '\n' then skipBlank cs else c :: cs
  | [] => []

/-- What follows a backslash at the end of a line, up to the next character that is no blank. -/
def continuation? (cs : List Char) : Option (List Char) :=
  (lineEnd? (skipSpace cs)).map skipBlank

/-- The rest of a string on one line, after its opening quote. -/
def lineTail? (escapes : Bool) (quote : Char) : (budget : Nat) → Reader (List Char)
  | 0, _ | _, [] => none
  | n + 1, c :: cs =>
    if c = quote then some ([], cs)
    else if escapes ∧ c = '\\' then do
      let (c, cs) ← escape? cs
      let (value, cs) ← lineTail? escapes quote n cs
      some (c :: value, cs)
    else if isPlain c then do
      let (value, cs) ← lineTail? escapes quote n cs
      some (c :: value, cs)
    else none

/-- The rest of a string of several lines. Up to five quotes end it, of which the last three close
it. -/
def linesTail? (escapes : Bool) (quote : Char) : (budget : Nat) → Reader (List Char)
  | 0, _ | _, [] => none
  | n + 1, c :: cs =>
    if c = quote then
      let run := min 5 (1 + (cs.takeWhile (· == quote)).length)
      if 3 ≤ run then some (List.replicate (run - 3) quote, cs.drop (run - 1))
      else do
        let (value, cs) ← linesTail? escapes quote n cs
        some (c :: value, cs)
    else if escapes ∧ c = '\\' then
      match continuation? cs with
      | some cs => linesTail? escapes quote n cs
      | none => do
        let (c, cs) ← escape? cs
        let (value, cs) ← linesTail? escapes quote n cs
        some (c :: value, cs)
    else
      match lineEnd? (c :: cs) with
      | some cs => do
        let (value, cs) ← linesTail? escapes quote n cs
        some ('\n' :: value, cs)
      | none =>
        if isPlain c then do
          let (value, cs) ← linesTail? escapes quote n cs
          some (c :: value, cs)
        else none

/-- A string of several lines, after its three opening quotes. A line end at its start is
dropped. -/
def linesString? (escapes : Bool) (quote : Char) : Reader String := fun cs => do
  let (value, rest) ← linesTail? escapes quote (cs.length + 1) ((lineEnd? cs).getD cs)
  some (String.ofList value, rest)

/-- A string on one line, after its opening quote. -/
def lineString? (escapes : Bool) (quote : Char) : Reader String := fun cs => do
  let (value, rest) ← lineTail? escapes quote (cs.length + 1) cs
  some (String.ofList value, rest)

/-- A string. -/
def string? : Reader String
  | '"' :: '"' :: '"' :: cs => linesString? true '"' cs
  | '"' :: cs => lineString? true '"' cs
  | '\'' :: '\'' :: '\'' :: cs => linesString? false '\'' cs
  | '\'' :: cs => lineString? false '\'' cs
  | _ => none

/-! ## Names -/

/-- One part of a name. -/
def part? : Reader String
  | '"' :: cs => lineString? true '"' cs
  | '\'' :: cs => lineString? false '\'' cs
  | cs =>
    let bare := cs.takeWhile isBareChar
    if bare.isEmpty then none else some (String.ofList bare, cs.dropWhile isBareChar)

/-- The parts of a name, with blanks around each. -/
def parts? : (budget : Nat) → Reader (List String)
  | 0, _ => none
  | n + 1, cs => do
    let (first, cs) ← part? (skipSpace cs)
    match skipSpace cs with
    | '.' :: cs =>
      let (others, cs) ← parts? n cs
      some (first :: others, cs)
    | cs => some ([first], cs)

/-- A name. -/
def name? : Reader Name := fun cs => do
  let (parts, rest) ← parts? depthLimit cs
  if depthLimit ≤ parts.length then none
  else some ((parts.dropLast, parts.getLast?.getD ""), rest)

/-! ## Numbers -/

/-- Digits of which those behind the first may follow an underscore. -/
def digits? (isDigit : Char → Bool) : Reader (List Char)
  | [] => none
  | c :: cs => if isDigit c then some (more (c :: cs)) else none
where
  /-- Digits with single underscores between them. -/
  more : List Char → List Char × List Char
    | [] => ([], [])
    | '_' :: d :: cs =>
      if isDigit d then Prod.map (d :: ·) id (more cs) else ([], '_' :: d :: cs)
    | c :: cs => if isDigit c then Prod.map (c :: ·) id (more cs) else ([], c :: cs)

/-- A whole number without a sign: a zero alone, or digits that do not begin with one. -/
def whole? : Reader (List Char)
  | '0' :: cs => some (['0'], cs)
  | cs => digits? Char.isDigit cs

/-- An integer of 64 bits. -/
def integer? (value : Int) : Option Toml :=
  if Int64.minValue.toInt ≤ value ∧ value ≤ Int64.maxValue.toInt then some (.integer value)
  else none

/-- A number in another base, behind the sign of the base. -/
def based? (base : Nat) (isDigit : Char → Bool) : Reader Toml := fun cs => do
  let (ds, rest) ← digits? isDigit cs
  some (← integer? (ofDigits base ds), rest)

/-- The double nearest to `mantissa · 10 ^ exponent`. -/
def nearest (mantissa : Nat) (exponent : Int) : Float :=
  let places := (Nat.toDigits 10 mantissa).length + exponent
  if mantissa = 0 ∨ places < -400 then 0
  else if 400 < places then 1.0 / 0.0
  else if 0 ≤ exponent then Float.ofScientific mantissa false exponent.toNat
  else Float.ofScientific mantissa true (-exponent).toNat

/-- The exponent of a float, if there is one. -/
def exponent? (cs : List Char) : Option (Option Int × List Char) :=
  match cs with
  | c :: cs =>
    if c = 'e' ∨ c = 'E' then do
      let (negative, cs) :=
        match cs with
        | '-' :: cs => (true, cs)
        | '+' :: cs => (false, cs)
        | cs => (false, cs)
      let (ds, rest) ← digits? Char.isDigit cs
      let value : Int := ofDigits 10 ds
      some (some (if negative then -value else value), rest)
    else some (none, c :: cs)
  | [] => some (none, [])

/-- The fraction of a float, if there is one. -/
def fraction? (cs : List Char) : Option (Option (List Char) × List Char) :=
  match cs with
  | '.' :: cs => do
    let (ds, rest) ← digits? Char.isDigit cs
    some (some ds, rest)
  | cs => some (none, cs)

/-- An integer or float without its sign. A float too large to the positive side is refused. -/
def unsigned? (negative : Bool) : Reader Toml
  | 'i' :: 'n' :: 'f' :: cs => some (.float negative (1.0 / 0.0), cs)
  | 'n' :: 'a' :: 'n' :: cs => some (.float negative (0.0 / 0.0), cs)
  | cs => do
    let (ds, rest) ← whole? cs
    let (fraction, rest) ← fraction? rest
    let (exponent, rest) ← exponent? rest
    match fraction, exponent with
    | none, none =>
      let n : Int := ofDigits 10 ds
      some (← integer? (if negative then -n else n), rest)
    | _, _ =>
      let places := fraction.getD []
      let x := nearest (ofDigits 10 (ds ++ places)) (exponent.getD 0 - places.length)
      if x.isInf ∧ !negative then none else some (.float negative x, rest)

/-- A number. -/
def number? : Reader Toml
  | '+' :: cs => unsigned? false cs
  | '-' :: cs => unsigned? true cs
  | '0' :: 'x' :: cs => based? 16 (fun c => (Token.hexDigit? c).isSome) cs
  | '0' :: 'o' :: cs => based? 8 (fun c => c.isDigit && c < '8') cs
  | '0' :: 'b' :: cs => based? 2 (fun c => c == '0' || c == '1') cs
  | cs => unsigned? false cs

/-- A number, date or time. -/
def scalar? (cs : List Char) : Option (Toml × List Char) :=
  if startsDate cs then (dateTime? cs).map fun r => (.dateTime r.1, r.2)
  else if startsTime cs then
    (time? 23 cs).map fun r => (.dateTime ⟨none, some r.1, none⟩, r.2)
  else number? cs

/-! ## Values -/

mutual

/-- A value. `depth` counts the values it is nested in. -/
def value? : (budget : Nat) → (depth : Nat) → Reader Toml
  | 0, _, _ => none
  | n + 1, depth, cs =>
    match cs with
    | '"' :: _ | '\'' :: _ => (string? cs).map fun r => (.string r.1, r.2)
    | '[' :: cs =>
      if depthLimit ≤ depth + 1 then none
      else
        match skipLines (cs.length + 1) cs with
        | ']' :: cs => some (.array [], cs)
        | cs => (items? n (depth + 1) cs).map fun r => (.array r.1, r.2)
    | '\x7b' :: cs =>
      if depthLimit ≤ depth + 1 then none
      else
        match skipSpace cs with
        | '\x7d' :: cs => some (.table [], cs)
        | cs => do
          let (pairs, cs) ← pairs? n (depth + 1) cs
          some (← inlineTable? pairs, cs)
    | 't' :: 'r' :: 'u' :: 'e' :: cs => some (.boolean true, cs)
    | 'f' :: 'a' :: 'l' :: 's' :: 'e' :: cs => some (.boolean false, cs)
    | cs => scalar? cs

/-- The items of an array from the first one on, up to and with the closing bracket. A comma may
follow the last item. -/
def items? : (budget : Nat) → (depth : Nat) → Reader (List Toml)
  | 0, _, _ => none
  | n + 1, depth, cs => do
    let (item, cs) ← value? n depth cs
    match skipLines (cs.length + 1) cs with
    | ']' :: cs => some ([item], cs)
    | ',' :: cs =>
      match skipLines (cs.length + 1) cs with
      | ']' :: cs => some ([item], cs)
      | cs =>
        let (items, cs) ← items? n depth cs
        some (item :: items, cs)
    | _ => none

/-- The members of an inline table from the first one on, up to and with the closing brace. -/
def pairs? : (budget : Nat) → (depth : Nat) → Reader (List KeyValue)
  | 0, _, _ => none
  | n + 1, depth, cs => do
    let (name, cs) ← name? cs
    let cs ← expect '=' cs
    let (value, cs) ← value? n depth (skipSpace cs)
    match skipSpace cs with
    | '\x7d' :: cs => some ([(name, value)], cs)
    | ',' :: cs =>
      let (pairs, cs) ← pairs? n depth cs
      some ((name, value) :: pairs, cs)
    | _ => none

end

/-! ## Documents -/

/-- A member on a line of its own. -/
def pair? : Reader KeyValue := fun cs => do
  let (name, cs) ← name? cs
  let cs ← expect '=' cs
  let (value, cs) ← value? (2 * cs.length + 2) 0 (skipSpace cs)
  some ((name, value), ← lineRest? cs)

/-- A header, after its brackets. -/
def header? (many : Bool) : Reader Section := fun cs => do
  let (name, cs) ← name? cs
  let cs ← expect ']' cs
  let cs ← if many then expect ']' cs else some cs
  some (⟨name, many, []⟩, ← lineRest? cs)

/-- Lines of members up to a header or the end. `budget` exceeds the number of characters. -/
def block? : (budget : Nat) → Reader (List KeyValue)
  | 0, _ => none
  | n + 1, cs =>
    match skipLines (cs.length + 1) cs with
    | [] => some ([], [])
    | '[' :: cs => some ([], '[' :: cs)
    | '#' :: cs => (lineRest? ('#' :: cs)).map fun cs => ([], cs)
    | cs => do
      let (pair, cs) ← pair? cs
      let (pairs, cs) ← block? n cs
      some (pair :: pairs, cs)

/-- Sections up to the end. -/
def sections? : (budget : Nat) → List Char → Option (List Section)
  | _, [] => some []
  | 0, _ => none
  | n + 1, cs => do
    let (head, cs) ←
      match cs with
      | '[' :: '[' :: cs => header? true cs
      | '[' :: cs => header? false cs
      | _ => none
    let (pairs, cs) ← block? (cs.length + 1) cs
    let others ← sections? n cs
    some ({ head with pairs } :: others)

/-- The members of a document. A byte order mark at its start is dropped. -/
def parse? (text : String) : Option (List (String × Toml)) := do
  let cs :=
    match text.toList with
    | '\uFEFF' :: cs => cs
    | cs => cs
  let (pairs, rest) ← block? (cs.length + 1) cs
  ofSections? pairs (← sections? (rest.length + 1) rest)

end ModuleGraph.Toml
