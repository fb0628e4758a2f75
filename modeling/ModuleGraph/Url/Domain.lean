import ModuleGraph.Text.Composition
import ModuleGraph.Text.Direction
import ModuleGraph.Text.Joining
import ModuleGraph.Text.MarkTable
import ModuleGraph.Url.DomainTable
import ModuleGraph.Url.Punycode

/-!
# Domain names

The ASCII form of a host's domain name. Its characters are mapped, which makes letters small and
resolves variants, and the text is composed. Then each label is checked, and a label beyond ASCII is
written in Punycode behind `xn--`.
-/

namespace ModuleGraph.Domain

open Text

/-- An ASCII character that no domain name may hold. -/
def isForbidden (c : Char) : Bool :=
  c.toNat ≤ 0x20 || c.toNat == 0x7F || c == '%' || c == '#' || c == '/' || c == ':' || c == '<'
    || c == '>' || c == '?' || c == '@' || c == '[' || c == '\\' || c == ']' || c == '^' || c == '|'

/-- What becomes of a character: it stays, it is refused, or others take its place. -/
inductive Rule where
  | valid
  | refused
  | becomes (cs : List Char)
deriving DecidableEq, Repr

/-- The rule of a character beyond ASCII that a row of the table gives. -/
def Rule.ofRow (row : PropertyRow) (n : Nat) : Rule :=
  match row.letter, row.numbers with
  | 'v', _ => .valid
  | 'i', _ => .becomes []
  | 'm', codes => .becomes (codes.map Char.ofNat)
  | 's', [d] => .becomes [Char.ofNat (n + d)]
  | 't', [d] => .becomes [Char.ofNat (n - d)]
  | 'p', _ => if (n - row.first) % 2 = 0 then .becomes [Char.ofNat (n + 1)] else .valid
  | _, _ => .refused

/-- The rule of a character. -/
def rule (c : Char) : Rule :=
  if c.isUpper then .becomes [c.toLower]
  else if c.toNat < 0x80 then .valid
  else
    match characterRules.row? c.toNat with
    | some row => Rule.ofRow row c.toNat
    | none => .refused

/-- The characters that take the place of one; none if it is refused. -/
def mapped? (c : Char) : Option (List Char) :=
  match rule c with
  | .valid => some [c]
  | .becomes cs => some cs
  | .refused => none

/-- Whether a character is beyond ASCII. -/
def isBeyondAscii (c : Char) : Bool :=
  0x80 ≤ c.toNat

/-- Whether a label may stand in a domain name: it starts with no mark, its joiners are of use, and
it holds no forbidden character. -/
def isLabel (cs : List Char) : Bool :=
  !cs.any isForbidden
    && !cs.head?.any (fun c => marks.letter? c == some 'm')
    && joinersAllowed [] cs

/-- What a label in Punycode begins with. -/
def codedStart : List Char :=
  ['x', 'n', '-', '-']

/-- The most characters of a label in Punycode, behind what it begins with. -/
def codedSizeLimit : Nat :=
  2000

/-- The most characters of a label beyond ASCII. -/
def labelSizeLimit : Nat :=
  1000

/-- The label that a label in Punycode stands for. It has to be one that would be written so: in
mapped and composed form, and not in ASCII alone. -/
def decodeLabel? (coded : List Char) : Option (List Char) := do
  let cs ← if codedSizeLimit < coded.length then none else Punycode.decode? coded
  if cs.any isBeyondAscii && cs.all (rule · == .valid) && composed cs == cs then some cs else none

/-- The text that a label stands for, if it may stand in a domain name. -/
def labelText? (cs : List Char) : Option (List Char) := do
  let cs ← if codedStart.isPrefixOf cs then decodeLabel? (cs.drop codedStart.length) else some cs
  if isLabel cs then some cs else none

/-- The text of a label in ASCII, unless it is too long to be put in Punycode. -/
def encodeLabel? (cs : List Char) : Option (List Char) :=
  if !cs.any isBeyondAscii then some cs
  else if labelSizeLimit < cs.length then none
  else some (codedStart ++ Punycode.encode cs)

/-- A label of a domain name: the text that it stands for, and its ASCII form. -/
structure Label where
  text : List Char
  ascii : List Char
deriving DecidableEq, Repr

/-- The labels of a part of a domain name that has no dot. A part in ASCII is one label and keeps
its form. Any other part is mapped and composed, which can put dots in it, and its labels are
encoded. -/
def labels? (cs : List Char) : Option (List Label) := do
  if cs.any isBeyondAscii then
    let pieces ← cs.mapM mapped?
    (splitWhere (· == '.') (composed pieces.flatten)).mapM fun cs => do
      let text ← labelText? cs
      some ⟨text, ← encodeLabel? text⟩
  else
    let ascii := cs.map Char.toLower
    some [⟨← labelText? ascii, ascii⟩]

/-- Whether labels may stand beside each other: if one has letters that run from right to left, all
have to be of one direction each. -/
def directionsAgree (labels : List (List Char)) : Bool :=
  let classes := labels.map (·.map Direction.ofChar)
  !classes.any (·.any Direction.isRightToLeft) || classes.all Direction.isLabel

/-- The ASCII form of a domain name. -/
def toAscii? (cs : List Char) : Option (List Char) := do
  let labels := (← (splitWhere (· == '.') cs).mapM labels?).flatten
  if directionsAgree (labels.map Label.text) then
    some (['.'].intercalate (labels.map Label.ascii))
  else none

end ModuleGraph.Domain
