import ModuleGraph.Token.Lexer

/-!
# Percent-encoding

`Percent.encode` writes the bytes of the characters in a set as `%` and two hexadecimal digits, and
always those of characters beyond ASCII; `Percent.decode` turns such triplets back into bytes. The
sets are those of the URL standard for the parts of a URL.
-/

namespace ModuleGraph.Percent

/-- C0 controls and delete. -/
def controlSet (c : Char) : Bool :=
  c.toNat < 0x20 || c.toNat == 0x7F

/-- What is encoded in a fragment. -/
def fragmentSet (c : Char) : Bool :=
  controlSet c || c == ' ' || c == '"' || c == '<' || c == '>' || c == '\x60'

/-- What is encoded in a query. -/
def querySet (c : Char) : Bool :=
  controlSet c || c == ' ' || c == '"' || c == '#' || c == '<' || c == '>'

/-- What is encoded in the query of a special URL. -/
def specialQuerySet (c : Char) : Bool :=
  querySet c || c == '\''

/-- What is encoded in a path segment. -/
def pathSet (c : Char) : Bool :=
  fragmentSet c || c == '#' || c == '?' || c == '\x7b' || c == '\x7d'

/-- What is encoded in a user name or password. -/
def userinfoSet (c : Char) : Bool :=
  pathSet c || c == '/' || c == ':' || c == ';' || c == '=' || c == '@' || c == '[' || c == '\\'
    || c == ']' || c == '^' || c == '|'

/-- The upper-case hexadecimal digit of a number below sixteen. -/
def hexDigit (n : Nat) : Char :=
  if n < 10 then Char.ofNat ('0'.toNat + n) else Char.ofNat ('A'.toNat + (n - 10))

/-- The triplet of a byte. -/
def encodeByte (b : UInt8) : List Char :=
  ['%', hexDigit (b.toNat / 16), hexDigit (b.toNat % 16)]

/-- One character, encoded if it is in the set or beyond ASCII. -/
def encodeChar (set : Char → Bool) (c : Char) : List Char :=
  if 0x80 ≤ c.toNat || set c then (String.utf8EncodeChar c).flatMap encodeByte else [c]

/-- Characters, with those in the set or beyond ASCII encoded. -/
def encode (set : Char → Bool) (cs : List Char) : List Char :=
  cs.flatMap (encodeChar set)

/-- The bytes that characters stand for: those of a triplet, and the UTF-8 of all others. -/
def decode : List Char → List UInt8
  | [] => []
  | '%' :: a :: b :: cs =>
    match Token.hexDigit? a, Token.hexDigit? b with
    | some high, some low => UInt8.ofNat (16 * high + low) :: decode cs
    | _, _ => UInt8.ofNat 0x25 :: decode (a :: b :: cs)
  | c :: cs => String.utf8EncodeChar c ++ decode cs

/-- The characters of a UTF-8 byte sequence. -/
def ofUtf8? (bytes : List UInt8) : Option (List Char) :=
  bytes.toByteArray.utf8Decode?.map Array.toList

/-- The characters that percent-encoded UTF-8 stands for. -/
def decodeText? (cs : List Char) : Option (List Char) :=
  ofUtf8? (decode cs)

theorem ofUtf8?_utf8 (cs : List Char) : ofUtf8? (cs.flatMap String.utf8EncodeChar) = some cs := by
  have h := List.utf8Decode?_utf8Encode (l := cs)
  rw [List.utf8Encode] at h
  simp [ofUtf8?, h]

end ModuleGraph.Percent
