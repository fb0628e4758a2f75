import ModuleGraph.Text.Split
import ModuleGraph.Token.Lexer

/-!
# Numeric hosts

IPv4 and IPv6 addresses. Each form has a reader that accepts the spellings of the URL standard and a
text that gives the one spelling of a host.
-/

namespace ModuleGraph.Address

/-- The number that digits of a base spell, `none` if one is no such digit. -/
def digits? (base : Nat) (cs : List Char) : Option Nat :=
  cs.foldlM (fun n c =>
    match Token.hexDigit? c with
    | some d => if d < base then some (n * base + d) else none
    | none => none) 0

/-! ## IPv4 -/

/-- One part of an IPv4 address: decimal, octal behind `0`, or hexadecimal behind `0x`. A bare `0x`
is zero. -/
def ipv4Part? : List Char → Option Nat
  | [] => none
  | '0' :: 'x' :: cs | '0' :: 'X' :: cs => digits? 16 cs
  | '0' :: c :: cs => digits? 8 (c :: cs)
  | cs => digits? 10 cs

/-- The parts between the dots of a host, without the empty one behind a dot at the end. -/
def dotParts (cs : List Char) : List (List Char) :=
  let parts := Text.splitWhere (· == '.') cs
  if parts.getLast? == some [] && 1 < parts.length then parts.dropLast else parts

/-- Whether a host has to be an IPv4 address: its last part is a number. -/
def endsInNumber (cs : List Char) : Bool :=
  match (dotParts cs).getLast? with
  | none | some [] => false
  | some part => part.all Char.isDigit || (ipv4Part? part).isSome

/-- The value of an IPv4 address. Every part but the last is a byte, and the last one fills the
bytes that remain. -/
def ipv4? (cs : List Char) : Option Nat := do
  let numbers ← (dotParts cs).mapM ipv4Part?
  let last ← numbers.getLast?
  let bytes := numbers.dropLast
  if 3 < bytes.length || bytes.any (255 < ·) || Nat.pow 256 (4 - bytes.length) ≤ last then none
  else
    let high := bytes.foldl (fun n b => n * 256 + b) 0
    some (high * Nat.pow 256 (4 - bytes.length) + last)

/-- The dotted text of an IPv4 address. -/
def ipv4Text (n : Nat) : String :=
  ".".intercalate ([3, 2, 1, 0].map fun i => toString (n / Nat.pow 256 i % 256))

/-! ## IPv6 -/

/-- One byte of an IPv4 address inside an IPv6 address: decimal, without leading zeros. -/
def byte? (cs : List Char) : Option Nat :=
  match cs with
  | [] => none
  | '0' :: _ :: _ => none
  | _ => do
    let n ← digits? 10 cs
    if n < 256 then some n else none

/-- The two groups of a dotted IPv4 address. -/
def dottedGroups? (cs : List Char) : Option (List Nat) := do
  match ← (Text.splitWhere (· == '.') cs).mapM byte? with
  | [a, b, c, d] => some [a * 256 + b, c * 256 + d]
  | _ => none

/-- A group of one to four hexadecimal digits. -/
def group? (cs : List Char) : Option Nat :=
  if cs.isEmpty || 4 < cs.length then none else digits? 16 cs

/-- Groups separated by colons; the last one may be a dotted IPv4 address where that is allowed. -/
def groups? (dotted : Bool) : List (List Char) → Option (List Nat)
  | [] => some []
  | [cs] =>
    if dotted && cs.contains '.' then dottedGroups? cs else (group? cs).map fun g => [g]
  | cs :: rest => do
    let g ← group? cs
    let gs ← groups? dotted rest
    some (g :: gs)

/-- The groups of a text; none if it is empty. -/
def groupsOf? (dotted : Bool) (cs : List Char) : Option (List Nat) :=
  if cs.isEmpty then some [] else groups? dotted (Text.splitWhere (· == ':') cs)

/-- The text before and after the first double colon. -/
def splitDoubleColon : List Char → Option (List Char × List Char)
  | [] => none
  | ':' :: ':' :: cs => some ([], cs)
  | c :: cs => (splitDoubleColon cs).map fun r => (c :: r.1, r.2)

/-- The eight groups of an IPv6 address. A double colon stands for at least one group of zeros. -/
def ipv6? (cs : List Char) : Option (List Nat) :=
  match splitDoubleColon cs with
  | none => do
    let gs ← groupsOf? true cs
    if gs.length = 8 then some gs else none
  | some (left, right) => do
    let ls ← groupsOf? false left
    let rs ← groupsOf? true right
    if 7 < ls.length + rs.length then none
    else some (ls ++ List.replicate (8 - ls.length - rs.length) 0 ++ rs)

/-- The number of zeros that a list starts with. -/
def leadingZeros (gs : List Nat) : Nat :=
  (gs.takeWhile (· == 0)).length

/-- The start and length of the first longest run of zeros. -/
def longestZeros (gs : List Nat) : Nat × Nat :=
  (List.range gs.length).foldl (fun best i =>
    let n := leadingZeros (gs.drop i)
    if best.2 < n then (i, n) else best) (0, 0)

/-- The hexadecimal text of a number. -/
def hexText (n : Nat) : String :=
  String.ofList (Nat.toDigits 16 n)

/-- The text of an IPv6 address in brackets. The first longest run of two or more zeros is
shortened to a double colon. -/
def ipv6Text (gs : List Nat) : String :=
  let colons (part : List Nat) := ":".intercalate (part.map hexText)
  let (start, length) := longestZeros gs
  if length < 2 then "[" ++ colons gs ++ "]"
  else "[" ++ colons (gs.take start) ++ "::" ++ colons (gs.drop (start + length)) ++ "]"

end ModuleGraph.Address
