import ModuleGraph.Token.Lexer
import ModuleGraph.Toml

/-!
# Reading dates and times

`dateTime?` and `time?` read the dates and times of a TOML document. `DateTime.ofText?` reads the
text of one that stands in a table of its own; it admits an hour at the end of the day, and offsets
by their sum alone.
-/

namespace ModuleGraph.Toml

/-- A reader. -/
abbrev Reader (α : Type) := List Char → Option (α × List Char)

/-- The value of digits. -/
def ofDigits (base : Nat) (ds : List Char) : Nat :=
  ds.foldl (fun n d => n * base + (Token.hexDigit? d).getD 0) 0

/-- A number of exactly `width` digits between two bounds. -/
def field? (width low high : Nat) : Reader Nat := fun cs =>
  let ds := cs.take width
  let n := ofDigits 10 ds
  if ds.length = width ∧ ds.all Char.isDigit ∧ low ≤ n ∧ n ≤ high then some (n, cs.drop width)
  else none

/-- A given character. -/
def expect (c : Char) (cs : List Char) : Option (List Char) :=
  match cs with
  | d :: cs => if d = c then some cs else none
  | [] => none

/-- The number of days of a month. -/
def daysIn (year month : Nat) : Nat :=
  if month = 2 then
    if year % 4 = 0 ∧ (year % 100 ≠ 0 ∨ year % 400 = 0) then 29 else 28
  else if month ∈ [4, 6, 9, 11] then 30
  else 31

/-- A date. -/
def date? : Reader Date := fun cs => do
  let (year, cs) ← field? 4 0 9999 cs
  let cs ← expect '-' cs
  let (month, cs) ← field? 2 1 12 cs
  let cs ← expect '-' cs
  let (day, cs) ← field? 2 1 (daysIn year month) cs
  some (⟨year, month, day⟩, cs)

/-- The billionths that the digits behind a point stand for; digits behind the ninth are dropped. -/
def billionths (ds : List Char) : Nat :=
  let ds := ds.take 9
  ofDigits 10 ds * Nat.pow 10 (9 - ds.length)

/-- A time, with a last hour of the day. -/
def time? (lastHour : Nat) : Reader Time := fun cs => do
  let (hour, cs) ← field? 2 0 lastHour cs
  let cs ← expect ':' cs
  let (minute, cs) ← field? 2 0 59 cs
  let cs ← expect ':' cs
  let (second, cs) ← field? 2 0 60 cs
  match cs with
  | '.' :: cs =>
    let ds := cs.takeWhile Char.isDigit
    if ds.isEmpty then none
    else some (⟨hour, minute, second, billionths ds⟩, cs.dropWhile Char.isDigit)
  | cs => some (⟨hour, minute, second, 0⟩, cs)

/-- An offset, if there is one. -/
def offset? (cs : List Char) : Option (Option Offset × List Char) :=
  match cs with
  | c :: cs =>
    if c = 'Z' ∨ c = 'z' then some (some .universal, cs)
    else if c = '+' ∨ c = '-' then do
      let (hour, cs) ← field? 2 0 23 cs
      let cs ← expect ':' cs
      let (minute, cs) ← field? 2 0 59 cs
      let value : Int := hour * 60 + minute
      some (some (.minutes (if c = '-' then -value else value)), cs)
    else some (none, c :: cs)
  | [] => some (none, [])

/-- What follows the sign between a date and a time, if a time follows it. -/
def beforeTime? (cs : List Char) : Option (List Char) :=
  match cs with
  | c :: a :: b :: ':' :: cs =>
    if (c = 'T' ∨ c = 't' ∨ c = ' ') ∧ a.isDigit ∧ b.isDigit then some (a :: b :: ':' :: cs)
    else none
  | _ => none

/-- A date, with the time and offset that follow it. -/
def dateTime? : Reader DateTime := fun cs => do
  let (date, cs) ← date? cs
  match beforeTime? cs with
  | none => some (⟨some date, none, none⟩, cs)
  | some cs =>
    let (time, cs) ← time? 23 cs
    let (offset, cs) ← offset? cs
    some (⟨some date, some time, offset⟩, cs)

/-- Whether a date begins: four digits and a hyphen. -/
def startsDate : List Char → Bool
  | a :: b :: c :: d :: '-' :: _ => a.isDigit && b.isDigit && c.isDigit && d.isDigit
  | _ => false

/-- Whether a time begins: two digits and a colon. -/
def startsTime : List Char → Bool
  | a :: b :: ':' :: _ => a.isDigit && b.isDigit
  | _ => false

/-! ## Texts of dates and times -/

/-- The offset that a text spells, none if there is no text. -/
def offsetOfText? : List Char → Option (Option Offset)
  | [] => some none
  | ['Z'] | ['z'] => some (some .universal)
  | sign :: cs => do
    let (hours, cs) ← field? 2 0 99 cs
    let (minutes, cs) ← field? 2 0 99 (← expect ':' cs)
    let sum : Int := hours * 60 + minutes
    if !cs.isEmpty ∨ 24 * 60 < sum then none
    else if sign = '+' then some (some (.minutes sum))
    else if sign = '-' then some (some (.minutes (-sum)))
    else none

/-- The date or time that a text spells. -/
def DateTime.ofText? (text : String) : Option DateTime := do
  let cs := text.toList
  if cs[2]? = some ':' then
    let (time, rest) ← time? 24 cs
    if rest.isEmpty then some ⟨none, some time, none⟩ else none
  else
    let (date, rest) ← date? cs
    match rest with
    | [] => some ⟨some date, none, none⟩
    | c :: cs =>
      if c = 'T' ∨ c = 't' ∨ c = ' ' then
        let (time, rest) ← time? 24 cs
        some ⟨some date, some time, ← offsetOfText? rest⟩
      else none

end ModuleGraph.Toml
