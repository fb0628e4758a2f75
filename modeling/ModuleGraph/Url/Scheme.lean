/-!
# Schemes

The scheme that a URL's text starts with, and how URLs of a scheme are read: `SchemeKind` tells the
kinds apart, `defaultPort?` gives a scheme's own port, and `splitScheme` finds the scheme of a text.
Tabs and line ends in a text count nowhere; `visible` leaves them out.
-/

namespace ModuleGraph.Url

/-- How a scheme's URLs are read. -/
inductive SchemeKind where
  | file
  | special
  | other
deriving DecidableEq

/-- The kind of a scheme. -/
def schemeKind (scheme : String) : SchemeKind :=
  if scheme = "file" then .file
  else if scheme ∈ ["http", "https", "ws", "wss", "ftp"] then .special
  else .other

/-- The port that a scheme uses by itself. -/
def defaultPort? (scheme : String) : Option Nat :=
  if scheme ∈ ["http", "ws"] then some 80
  else if scheme ∈ ["https", "wss"] then some 443
  else if scheme = "ftp" then some 21
  else none

/-- Whether a backslash counts as a slash. -/
def SchemeKind.isSpecial (k : SchemeKind) : Bool :=
  k != .other

/-- A character that separates path segments. -/
def isSlash (k : SchemeKind) (c : Char) : Bool :=
  c == '/' || (k.isSpecial && c == '\\')

/-- A tab or line end, which counts nowhere in a text. -/
def isIgnored (c : Char) : Bool :=
  c == '\t' || c == '\n' || c == '\r'

/-- The characters that count. -/
def visible (cs : List Char) : List Char :=
  cs.filter (!isIgnored ·)

/-- A text without controls and spaces at its ends. -/
def trimmed (cs : List Char) : List Char :=
  let isControl (c : Char) : Bool := c.toNat ≤ 0x20
  ((cs.dropWhile isControl).reverse.dropWhile isControl).reverse

/-- The characters of a scheme and those behind its colon. -/
def schemeTail : List Char → Option (List Char × List Char)
  | [] => none
  | ':' :: cs => some ([], cs)
  | c :: cs =>
    if isIgnored c then schemeTail cs
    else if c.isAlphanum || c == '+' || c == '-' || c == '.' then
      (schemeTail cs).map fun r => (c.toLower :: r.1, r.2)
    else none

/-- The scheme that a trimmed text starts with, and the characters behind its colon. -/
def splitScheme (cs : List Char) : Option (String × List Char) :=
  match cs with
  | c :: _ => if c.isAlpha then (schemeTail cs).map fun r => (String.ofList r.1, r.2) else none
  | [] => none

end ModuleGraph.Url
