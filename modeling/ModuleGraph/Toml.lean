import ModuleGraph.Decimal

/-!
# TOML values

The values that a TOML document holds, and how they are written: `Toml.text` writes a value on one
line, the members of a table in the order of their names. `Toml.plainText` is the text of a value
that is asked for as one.
-/

namespace ModuleGraph

namespace Toml

/-- A calendar date. -/
structure Date where
  year : Nat
  month : Nat
  day : Nat
deriving DecidableEq, Repr

/-- A time of day, its fraction in billionths of a second. -/
structure Time where
  hour : Nat
  minute : Nat
  second : Nat
  fraction : Nat
deriving DecidableEq, Repr

/-- The distance from universal time, in minutes where it is written as a number. -/
inductive Offset where
  | universal
  | minutes (value : Int)
deriving DecidableEq, Repr

/-- A date, a time, or both with an offset. -/
structure DateTime where
  date : Option Date
  time : Option Time
  offset : Option Offset
deriving DecidableEq, Repr

end Toml

/-- A TOML value. The sign of a float is kept apart from its magnitude. -/
inductive Toml where
  | string (value : String)
  | integer (value : Int)
  | float (negative : Bool) (magnitude : Float)
  | boolean (value : Bool)
  | dateTime (value : Toml.DateTime)
  | array (items : List Toml)
  | table (members : List (String × Toml))

namespace Toml

/-- A number with at least `width` digits. -/
def padded (width n : Nat) : String :=
  let digits := Nat.toDigits 10 n
  String.ofList (List.replicate (width - digits.length) '0' ++ digits)

/-- A date as written. -/
def Date.text (d : Date) : String :=
  padded 4 d.year ++ "-" ++ padded 2 d.month ++ "-" ++ padded 2 d.day

/-- The fraction of a second as written: without zeros at its end, and not at all if it is zero. -/
def fractionText (fraction : Nat) : String :=
  if fraction = 0 then ""
  else
    let digits := (padded 9 fraction).toList
    "." ++ String.ofList (digits.reverse.dropWhile (· == '0')).reverse

/-- A time as written. -/
def Time.text (t : Time) : String :=
  padded 2 t.hour ++ ":" ++ padded 2 t.minute ++ ":" ++ padded 2 t.second ++ fractionText t.fraction

/-- An offset as written. -/
def Offset.text : Offset → String
  | .universal => "Z"
  | .minutes m =>
    (if m < 0 then "-" else "+") ++ padded 2 (m.natAbs / 60) ++ ":" ++ padded 2 (m.natAbs % 60)

/-- A date or time as written. -/
def DateTime.text (t : DateTime) : String :=
  let date := (t.date.map Date.text).getD ""
  let time := (t.time.map Time.text).getD ""
  date ++ (if t.date.isSome && t.time.isSome then "T" else "") ++ time
    ++ (t.offset.map Offset.text).getD ""

/-- A float as written: always with a point, and never with an exponent. What is no number has no
sign. -/
def floatText (negative : Bool) (x : Float) : String :=
  let magnitude :=
    if x.isInf then "inf"
    else if x.floor == x then (Decimal.ofFloat x).text ++ ".0"
    else (Decimal.ofFloat x).text
  if x.isNaN then "nan" else (if negative then "-" else "") ++ magnitude

/-! ## Strings -/

/-- The longest run of a character. -/
def longestRun (c : Char) (cs : List Char) : Nat :=
  (cs.foldl (fun (best, run) d => if d = c then (max best (run + 1), run + 1) else (best, 0))
    (0, 0)).1

/-- A control character that cannot stand in a string as it is. -/
def isControl (c : Char) : Bool :=
  (c.toNat ≤ 0x1F && c != '\t' && c != '\n') || c.toNat == 0x7F

/-- The four hexadecimal digits of a character's number. -/
def hex4 (n : Nat) : List Char :=
  let digits := (Nat.toDigits 16 n).map Char.toUpper
  List.replicate (4 - digits.length) '0' ++ digits

/-- The characters of a string between double quotes, with at most `quotes` double quotes in a row;
`run` of them stand directly before. A line end is kept in a string of several lines. -/
def escaped (lines : Bool) (quotes : Nat) : (run : Nat) → List Char → List Char
  | _, [] => []
  | run, c :: cs =>
    if c = '"' then
      if quotes ≤ run then '\\' :: '"' :: escaped lines quotes 0 cs
      else '"' :: escaped lines quotes (run + 1) cs
    else
      let written : List Char :=
        match c with
        | '\x08' => ['\\', 'b']
        | '\t' => ['\\', 't']
        | '\n' => if lines then ['\n'] else ['\\', 'n']
        | '\x0c' => ['\\', 'f']
        | '\r' => ['\\', 'r']
        | '\\' => ['\\', '\\']
        | c => if isControl c then '\\' :: 'u' :: hex4 c.toNat else [c]
      written ++ escaped lines quotes 0 cs

/-- How a string can be quoted. -/
inductive Quoting where
  | basic
  | literal
  | basicLines
  | literalLines
deriving DecidableEq, Repr

/-- The first way of quoting that needs no escapes, in the order double quotes, single quotes, three
double quotes, three single quotes; and if there is none, double quotes with escapes. -/
def quoting (cs : List Char) : Quoting :=
  let control := cs.any isControl
  let backslash := cs.contains '\\'
  let lines := cs.contains '\n'
  let singles := longestRun '\'' cs
  let doubles := longestRun '"' cs
  if !control && !backslash && doubles = 0 && !lines then .basic
  else if !control && singles = 0 && !lines then .literal
  else if !control && !backslash && doubles ≤ 2 then .basicLines
  else if !control && singles ≤ 2 then .literalLines
  else if lines then .basicLines
  else .basic

/-- A string as written. -/
def stringText (s : String) : String :=
  let cs := s.toList
  let newline := if cs.contains '\n' then "\n" else ""
  match quoting cs with
  | .basic => "\"" ++ String.ofList (escaped false 0 0 cs) ++ "\""
  | .literal => "'" ++ s ++ "'"
  | .basicLines => "\"\"\"" ++ newline ++ String.ofList (escaped true 2 0 cs) ++ "\"\"\""
  | .literalLines => "'''" ++ newline ++ s ++ "'''"

/-- A character of a name that needs no quotes. -/
def isBareChar (c : Char) : Bool :=
  c.isAlphanum || c == '-' || c == '_'

/-- A member's name as written. -/
def nameText (name : String) : String :=
  let cs := name.toList
  if !cs.isEmpty && cs.all isBareChar then name
  else
    match quoting cs with
    | .literal => "'" ++ name ++ "'"
    | _ => "\"" ++ String.ofList (escaped false 0 0 cs) ++ "\""

/-! ## Values -/

/-- The text of a table whose members have given texts. -/
def tableText (members : List (String × String)) : String :=
  if members.isEmpty then "\x7b\x7d"
  else
    let sorted := members.mergeSort fun a b => a.1 ≤ b.1
    "\x7b " ++ ", ".intercalate (sorted.map fun m => nameText m.1 ++ " = " ++ m.2) ++ " \x7d"

mutual

/-- A value as written. -/
def text : Toml → String
  | .string s => stringText s
  | .integer n => toString n
  | .float negative x => floatText negative x
  | .boolean b => if b then "true" else "false"
  | .dateTime t => t.text
  | .array items => "[" ++ ", ".intercalate (itemTexts items) ++ "]"
  | .table members => tableText (memberTexts members)

/-- The texts of items. -/
def itemTexts : List Toml → List String
  | [] => []
  | v :: vs => text v :: itemTexts vs

/-- The names of members with their texts. -/
def memberTexts : List (String × Toml) → List (String × String)
  | [] => []
  | (name, v) :: ms => (name, text v) :: memberTexts ms

end

/-- The name under which a date or time stands in a table of its own. -/
def dateTimeName : String :=
  "$__toml_private_datetime"

/-- The text of a value that is asked for as one: the contents of a string, a date or time as the
only member of a table, and any other value as written. -/
def plainText : Toml → String
  | .string s => s
  | .dateTime t => tableText [(dateTimeName, stringText t.text)]
  | v => v.text

end Toml

end ModuleGraph
