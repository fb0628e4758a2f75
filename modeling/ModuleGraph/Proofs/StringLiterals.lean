import Mathlib.Data.List.Basic
import ModuleGraph.Proofs.Scanning

/-!
# String literals

A string literal is written part by part: characters as they are, escapes, and line ends behind a
backslash. The scanner reads each part for itself (`Token.stringTail_part`), and so the whole
literal (`StringLiteral.tokensFrom_chars`).

A character has several spellings, and a text may mix them (`Spelling.Spells`). All of them are read
back, but for surrogate pairs: each half of a pair is read for itself, and stands for no character
(`Token.spelled_string`).
-/

namespace ModuleGraph

open Token (hexDigit? charOfCode)

/-! ## Codes -/

namespace Text

/-- The number that hexadecimal digits stand for, below the digits of `code`. -/
def digitsCode (code : Nat) (digits : List Char) : Nat :=
  digits.foldl (fun code d => code * 16 + (hexDigit? d).getD 0) code

/-- Characters that are hexadecimal digits. -/
def AreDigits (digits : List Char) : Prop :=
  ∀ d ∈ digits, (hexDigit? d).isSome = true

instance (digits : List Char) : Decidable (AreDigits digits) :=
  List.decidableBAll _ digits

/-- Hexadecimal digits of a number. -/
structure Digits (digits : List Char) (code : Nat) : Prop where
  areDigits : AreDigits digits
  code_eq : digitsCode 0 digits = code

instance (digits : List Char) (code : Nat) : Decidable (Digits digits code) :=
  decidable_of_iff (AreDigits digits ∧ digitsCode 0 digits = code)
    ⟨fun h => ⟨h.1, h.2⟩, fun h => ⟨h.areDigits, h.code_eq⟩⟩

/-- The first of some digits has a value, and the others are digits. -/
theorem AreDigits.cons_inv {d : Char} {digits : List Char} (h : AreDigits (d :: digits)) :
    ∃ n, hexDigit? d = some n ∧ AreDigits digits :=
  have ⟨n, hn⟩ := Option.isSome_iff_exists.1 (h d (by simp))
  ⟨n, hn, fun e he => h e (by simp [he])⟩

end Text

namespace Token

variable {digits : List Char}

/-- As many digits are read as are asked for. -/
theorem hexCode_digits (h : Text.AreDigits digits) (code o : Nat) (rest : List Char) :
    hexCode digits.length code o (digits ++ rest) =
      (Text.digitsCode code digits, ⟨o + Text.byteLength digits, rest⟩) := by
  induction digits generalizing code o with
  | nil => rfl
  | cons d digits ih =>
      obtain ⟨n, hd, hdigits⟩ := h.cons_inv
      rw [List.length_cons, List.cons_append, hexCode, hd]
      dsimp only
      rw [ih hdigits, Text.digitsCode, Text.digitsCode, List.foldl_cons, hd, Text.byteLength,
        Nat.add_assoc]
      rfl

/-- Digits are read up to the brace behind them. -/
theorem bracedCode_digits (h : Text.AreDigits digits) (code o : Nat) (rest : List Char) :
    bracedCode code o (digits ++ '\x7d' :: rest) =
      (Text.digitsCode code digits, ⟨o + Text.byteLength digits + 1, rest⟩) := by
  induction digits generalizing code o with
  | nil => rfl
  | cons d digits ih =>
      obtain ⟨n, hd, hdigits⟩ := h.cons_inv
      rw [List.cons_append, bracedCode, hd]
      dsimp only
      rw [ih hdigits, Text.digitsCode, Text.digitsCode, List.foldl_cons, hd, Text.byteLength,
        Nat.add_assoc o]
      rfl

/-- A character is read from its own code. -/
theorem charOfCode_toNat (c : Char) : charOfCode c.toNat = c := by
  have hvalid : c.toNat.isValidChar := c.valid
  rw [charOfCode, dif_pos hvalid]
  rfl

/-- A surrogate is no character. -/
theorem charOfCode_surrogate {code : Nat} (hlow : 0xD800 ≤ code) (hhigh : code < 0xE000) :
    charOfCode code = '\uFFFD' :=
  dif_neg fun h => by
    rcases h with h | h <;> omega

end Token

/-! ## Parts -/

/-- A part of a string, as it is written. -/
inductive StringPart where
  | raw (c : Char)
  | escape (c : Char)
  | hex (digits : List Char)
  | unicode (digits : List Char)
  | braced (digits : List Char)
  | returnFeed
deriving DecidableEq

namespace StringPart

/-- The characters of a part. -/
def chars : StringPart → List Char
  | .raw c => [c]
  | .escape c => ['\\', c]
  | .hex digits => '\\' :: 'x' :: digits
  | .unicode digits => '\\' :: 'u' :: digits
  | .braced digits => '\\' :: 'u' :: '\x7b' :: digits ++ ['\x7d']
  | .returnFeed => ['\\', '\r', '\n']

/-- What a part stands for. -/
def value : StringPart → List Char
  | .raw c => [c]
  | .escape c => (Token.escape 0 [c]).1
  | .hex digits | .unicode digits | .braced digits => [charOfCode (Text.digitsCode 0 digits)]
  | .returnFeed => []

/-- Whether a part can stand between two quotes. -/
def IsWritten (quote : Char) : StringPart → Prop
  | .raw c => c ≠ quote ∧ c ≠ '\\' ∧ c ≠ '\n'
  | .escape c => c ≠ 'x' ∧ c ≠ 'u'
  | .hex digits => digits.length = 2 ∧ Text.AreDigits digits
  | .unicode digits => digits.length = 4 ∧ Text.AreDigits digits
  | .braced digits => Text.AreDigits digits
  | .returnFeed => True

instance (quote : Char) : (p : StringPart) → Decidable (p.IsWritten quote)
  | .raw _ | .escape _ | .hex _ | .unicode _ => inferInstanceAs (Decidable (_ ∧ _))
  | .braced digits => inferInstanceAs (Decidable (Text.AreDigits digits))
  | .returnFeed => inferInstanceAs (Decidable True)

/-- No part starts with a line feed. -/
theorem head?_chars {quote : Char} {p : StringPart} (hp : p.IsWritten quote) (rest : List Char) :
    (p.chars ++ rest).head? ≠ some '\n' := by
  cases p with
  | raw c => exact fun h => hp.2.2 (Option.some.inj h)
  | _ => simp [chars]

end StringPart

namespace Token

variable {quote : Char} {digits rest : List Char}

/-! ## Escapes -/

/-- Two digits behind `x` are read as their character. -/
theorem escape_hex (hlength : digits.length = 2) (hdigits : Text.AreDigits digits) (o : Nat) :
    escape o ('x' :: digits ++ rest) = ([charOfCode (Text.digitsCode 0 digits)],
      ⟨o + Text.byteLength ('x' :: digits), rest⟩) := by
  have hread := hexCode_digits hdigits 0 (o + 1) rest
  rw [hlength, Nat.add_assoc] at hread
  change (hexCode 2 0 (o + 1) (digits ++ rest)).map (fun code => [charOfCode code]) id = _
  rw [hread]
  rfl

/-- Four digits behind `u` are read as their character. -/
theorem escape_unicode_digits (hlength : digits.length = 4) (hdigits : Text.AreDigits digits)
    (o : Nat) : escape o ('u' :: digits ++ rest) = ([charOfCode (Text.digitsCode 0 digits)],
      ⟨o + Text.byteLength ('u' :: digits), rest⟩) := by
  have hread := hexCode_digits hdigits 0 (o + 1) rest
  rw [hlength, Nat.add_assoc] at hread
  -- a digit comes first, and no brace
  have hbrace : ∀ cs, digits ++ rest ≠ '\x7b' :: cs := by
    intro cs hcs
    cases digits with
    | nil => cases hlength
    | cons d digits =>
        obtain ⟨n, hd, -⟩ := hdigits.cons_inv
        cases (List.cons.inj hcs).1
        cases hd
  rw [List.cons_append, escape_unicode hbrace, hread]
  rfl

/-- Digits between braces behind `u` are read as their character. -/
theorem escape_braced (hdigits : Text.AreDigits digits) (o : Nat) :
    escape o ('u' :: '\x7b' :: digits ++ ['\x7d'] ++ rest) =
      ([charOfCode (Text.digitsCode 0 digits)],
        ⟨o + Text.byteLength ('u' :: '\x7b' :: digits ++ ['\x7d']), rest⟩) := by
  have hread := bracedCode_digits hdigits 0 (o + 2) rest
  have hlength : o + Text.byteLength ('u' :: '\x7b' :: digits ++ ['\x7d']) =
      o + 2 + Text.byteLength digits + 1 := by
    simp [Text.byteLength, Char.utf8Size]
    omega
  rw [hlength, List.append_assoc]
  change (bracedCode 0 (o + 2) (digits ++ '\x7d' :: rest)).map
    (fun code => [charOfCode code]) id = _
  rw [hread]
  rfl

/-- A string goes on behind an escape with the characters that this stands for. -/
theorem stringTail_escape (body : List Char) {value : List Char} {o : Nat} (hquote : quote ≠ '\\')
    (hread : escape (o + 1) (body ++ rest) = (value, ⟨o + 1 + Text.byteLength body, rest⟩))
    (before : List Char) : stringTail quote before o ('\\' :: body ++ rest) =
      stringTail quote (value.reverse ++ before) (o + Text.byteLength ('\\' :: body)) rest := by
  rw [List.cons_append, stringTail, if_neg (by decide), if_neg (Ne.symm hquote), if_pos rfl, hread,
    Nat.add_assoc]
  rfl

/-! ## Whole strings -/

/-- A part is read as what it stands for. A carriage return behind a backslash takes a line feed
along, which no other part starts with. -/
theorem stringTail_part {p : StringPart} (hquote : quote ≠ '\\') (hp : p.IsWritten quote)
    (hrest : rest.head? ≠ some '\n') (before : List Char) (o : Nat) :
    stringTail quote before o (p.chars ++ rest) =
      stringTail quote (p.value.reverse ++ before) (o + Text.byteLength p.chars) rest := by
  cases p with
  | raw c =>
      obtain ⟨hend, hbackslash, hline⟩ := hp
      rw [StringPart.chars, List.singleton_append, stringTail, if_neg hline, if_neg hend,
        if_neg hbackslash]
      rfl
  | escape c =>
      have hline : c = '\r' → ∀ cs, rest ≠ '\n' :: cs :=
        fun _ cs hcs => hrest (congrArg List.head? hcs)
      exact stringTail_escape [c] hquote (escape_single hp.1 hp.2 hline (o + 1)) before
  | hex digits => exact stringTail_escape _ hquote (escape_hex hp.1 hp.2 (o + 1)) before
  | unicode digits =>
      exact stringTail_escape _ hquote (escape_unicode_digits hp.1 hp.2 (o + 1)) before
  | braced digits => exact stringTail_escape _ hquote (escape_braced hp (o + 1)) before
  | returnFeed => exact stringTail_escape ['\r', '\n'] hquote rfl before

/-- A string is read part by part up to its quote. -/
theorem stringTail_parts {parts : List StringPart} (hquote : quote ≠ '\\' ∧ quote ≠ '\n')
    (hparts : ∀ p ∈ parts, p.IsWritten quote) (before : List Char) (o : Nat) (rest : List Char) :
    stringTail quote before o (parts.flatMap StringPart.chars ++ quote :: rest) =
      (.ok (String.ofList (before.reverse ++ parts.flatMap StringPart.value)),
        ⟨o + Text.byteLength (parts.flatMap StringPart.chars ++ [quote]), rest⟩) := by
  induction parts generalizing before o with
  | nil =>
      rw [List.flatMap_nil, List.nil_append, stringTail, if_neg hquote.2, if_pos rfl]
      simp [Text.byteLength]
  | cons p parts ih =>
      rw [List.forall_mem_cons] at hparts
      have hhead : (parts.flatMap StringPart.chars ++ quote :: rest).head? ≠ some '\n' := by
        cases parts with
        | nil => exact fun h => hquote.2 (Option.some.inj h)
        | cons q parts =>
            rw [List.flatMap_cons, List.append_assoc]
            exact StringPart.head?_chars (hparts.2 q (by simp)) _
      rw [List.flatMap_cons, List.append_assoc, stringTail_part hquote.1 hparts.1 hhead,
        ih hparts.2]
      simp [Nat.add_assoc]

end Token

/-- A string literal. -/
structure StringLiteral where
  quote : Char
  parts : List StringPart
  isQuote : quote = '"' ∨ quote = '\''
  isWritten : ∀ p ∈ parts, p.IsWritten quote

namespace StringLiteral

/-- The characters of a literal. -/
def chars (l : StringLiteral) : List Char :=
  l.quote :: l.parts.flatMap StringPart.chars ++ [l.quote]

/-- The string that a literal stands for. -/
def value (l : StringLiteral) : String :=
  String.ofList (l.parts.flatMap StringPart.value)

/-- The quote of a literal is one of the two quotes. -/
theorem quote_ne (l : StringLiteral) {c : Char} (hdouble : c ≠ '"') (hsingle : c ≠ '\'') :
    l.quote ≠ c := by
  rintro rfl
  exact l.isQuote.elim hdouble hsingle

/-- A quote is no blank. -/
theorem isBlank_quote (l : StringLiteral) : Text.isBlank l.quote = false := by
  obtain h | h := l.isQuote <;> rw [h] <;> decide

/-- A literal is read as a whole, whatever comes behind it. -/
theorem plain_chars (l : StringLiteral) (afterOperand : Bool) (o : Nat) (rest : List Char) :
    ∃ cs, l.chars ++ rest = l.quote :: cs ∧ Token.plain afterOperand o l.quote cs =
      (.string l.value, ⟨o + Text.byteLength l.chars, rest⟩) := by
  refine ⟨l.parts.flatMap StringPart.chars ++ l.quote :: rest, by simp [chars], ?_⟩
  have hread := Token.stringTail_parts
    ⟨l.quote_ne (by decide) (by decide), l.quote_ne (by decide) (by decide)⟩ l.isWritten []
    (o + l.quote.utf8Size) rest
  have hplain : ∀ cs, Token.plain afterOperand o l.quote cs =
      Token.kindOf .string (Token.stringTail l.quote [] (o + l.quote.utf8Size) cs) := by
    obtain h | h := l.isQuote <;> rw [h] <;> intro cs <;> rfl
  rw [hplain, hread, Nat.add_assoc]
  rfl

/-- A literal is read as one token with the string that it stands for. -/
theorem tokensFrom_chars (l : StringLiteral) (afterOperand : Bool) (o : Nat) (rest : List Char) :
    Token.tokensFrom afterOperand ⟨o, l.chars ++ rest⟩ =
      ⟨.string l.value, ⟨o, o + Text.byteLength l.chars⟩, false⟩ ::
        Token.tokensFrom true ⟨o + Text.byteLength l.chars, rest⟩ := by
  obtain ⟨cs, hcs, hread⟩ := l.plain_chars afterOperand o rest
  have hnext : Token.next afterOperand ⟨o, l.chars ++ rest⟩ =
      (⟨.string l.value, ⟨o, o + Text.byteLength l.chars⟩, false⟩,
        ⟨o + Text.byteLength l.chars, rest⟩) := by
    rw [Token.next_eq, hcs, Token.skipBlank_outside
      (fun h => absurd h (l.quote_ne (by decide) (by decide))), l.isBlank_quote, if_neg (by decide)]
    simp only [Token.fromHead, Token.significant, if_neg (l.quote_ne (c := '\x60') (by decide)
      (by decide)), hread]
  rw [Token.tokensFrom_of_next hnext, if_neg (by simp)]
  rfl

end StringLiteral

/-! ## Spellings -/

/-- The letters and marks that stand for a character behind a backslash, and that character. -/
def singleEscapes : List (Char × Char) :=
  [('n', '\n'), ('r', '\r'), ('t', '\t'), ('b', '\x08'), ('f', '\x0c'), ('v', '\x0b'), ('"', '"'),
   ('\'', '\''), ('\\', '\\')]

/-- How a character is spelled. -/
inductive Spelling where
  | raw
  | single (letter : Char)
  | hex (digits : List Char)
  | unicode (digits : List Char)
  | braced (digits : List Char)
  | surrogates (high low : List Char)

namespace Spelling

/-- The parts that a character is written with. -/
def parts (c : Char) : Spelling → List StringPart
  | .raw => [.raw c]
  | .single letter => [.escape letter]
  | .hex digits => [.hex digits]
  | .unicode digits => [.unicode digits]
  | .braced digits => [.braced digits]
  | .surrogates high low => [.unicode high, .unicode low]

/-- The spellings of a character between two quotes. -/
def Spells (quote c : Char) : Spelling → Prop
  | .raw => c ≠ quote ∧ c ≠ '\\' ∧ c ≠ '\n' ∧ c ≠ '\r'
  | .single letter => (letter, c) ∈ singleEscapes
  | .hex digits => digits.length = 2 ∧ Text.Digits digits c.toNat
  | .unicode digits => digits.length = 4 ∧ Text.Digits digits c.toNat
  | .braced digits => digits ≠ [] ∧ Text.Digits digits c.toNat
  | .surrogates high low => 0x10000 ≤ c.toNat ∧
      (high.length = 4 ∧ Text.Digits high (0xD800 + (c.toNat - 0x10000) / 0x400)) ∧
      (low.length = 4 ∧ Text.Digits low (0xDC00 + (c.toNat - 0x10000) % 0x400))

instance (quote c : Char) : (spelling : Spelling) → Decidable (spelling.Spells quote c)
  | .raw => inferInstanceAs (Decidable (_ ∧ _))
  | .single _ => inferInstanceAs (Decidable (_ ∈ _))
  | .hex _ | .unicode _ | .braced _ => inferInstanceAs (Decidable (_ ∧ _))
  | .surrogates _ _ => inferInstanceAs (Decidable (_ ∧ (_ ∧ _) ∧ _ ∧ _))

/-- Whether a character is spelled by a surrogate pair. -/
def isSurrogates : Spelling → Bool
  | .surrogates _ _ => true
  | _ => false

end Spelling

/-- The ways to go on with a string in the next line. -/
def lineContinuations : List StringPart :=
  [.escape '\n', .escape '\r', .returnFeed]

/-- A character of a string with its spelling, or a line end behind a backslash. -/
inductive StringItem where
  | char (c : Char) (spelling : Spelling)
  | lineEnd (part : StringPart)

namespace StringItem

/-- The parts that an item is written with. -/
def parts : StringItem → List StringPart
  | .char c spelling => spelling.parts c
  | .lineEnd part => [part]

/-- Whether an item can stand between two quotes. -/
def IsWritten (quote : Char) : StringItem → Prop
  | .char c spelling => spelling.Spells quote c
  | .lineEnd part => part ∈ lineContinuations

instance (quote : Char) : (i : StringItem) → Decidable (i.IsWritten quote)
  | .char c spelling => inferInstanceAs (Decidable (spelling.Spells quote c))
  | .lineEnd part => inferInstanceAs (Decidable (part ∈ lineContinuations))

/-- Whether an item is a character that is spelled by a surrogate pair. -/
def isSurrogates : StringItem → Bool
  | .char _ spelling => spelling.isSurrogates
  | .lineEnd _ => false

/-- The character that an item spells, if it spells one. -/
def spelled : StringItem → List Char
  | .char c _ => [c]
  | .lineEnd _ => []

/-- The characters that an item is read as. -/
def read (i : StringItem) : List Char :=
  if i.isSurrogates then ['\uFFFD', '\uFFFD'] else i.spelled

/-- The characters of a literal with these items. -/
def literal (quote : Char) (items : List StringItem) : List Char :=
  quote :: items.flatMap (fun i => i.parts.flatMap StringPart.chars) ++ [quote]

/-- The parts of an item can stand between the quotes if the item can. -/
theorem isWritten_parts {quote : Char} {i : StringItem} (hi : i.IsWritten quote) :
    ∀ p ∈ i.parts, p.IsWritten quote := by
  cases i with
  | char c spelling =>
      cases spelling with
      | raw => simpa [parts, Spelling.parts, StringPart.IsWritten] using ⟨hi.1, hi.2.1, hi.2.2.1⟩
      | single letter =>
          have hletters : ∀ e ∈ singleEscapes, e.1 ≠ 'x' ∧ e.1 ≠ 'u' := by decide
          simpa [parts, Spelling.parts, StringPart.IsWritten] using hletters _ hi
      | hex digits | unicode digits =>
          simpa [parts, Spelling.parts, StringPart.IsWritten] using ⟨hi.1, hi.2.areDigits⟩
      | braced digits =>
          simpa [parts, Spelling.parts, StringPart.IsWritten] using hi.2.areDigits
      | surrogates high low =>
          obtain ⟨-, ⟨hhigh, hhighDigits⟩, hlow, hlowDigits⟩ := hi
          simp [parts, Spelling.parts, StringPart.IsWritten, hhigh, hlow, hhighDigits.areDigits,
            hlowDigits.areDigits]
  | lineEnd part =>
      have hends : ∀ p ∈ lineContinuations, p.IsWritten quote := by
        simp [lineContinuations, StringPart.IsWritten]
      simpa [parts] using hends part hi

/-- An item is read as what it spells, but for a surrogate pair. -/
theorem flatMap_value_parts {quote : Char} {i : StringItem} (hi : i.IsWritten quote) :
    i.parts.flatMap StringPart.value = i.read := by
  cases i with
  | char c spelling =>
      cases spelling with
      | raw => rfl
      | single letter =>
          have hletters : ∀ e ∈ singleEscapes, (Token.escape 0 [e.1]).1 = [e.2] := by decide
          exact (List.append_nil _).trans (hletters _ hi)
      | hex digits | unicode digits | braced digits =>
          change [charOfCode (Text.digitsCode 0 digits)] = [c]
          rw [hi.2.code_eq, Token.charOfCode_toNat]
      | surrogates high low =>
          obtain ⟨hc, ⟨-, hhigh⟩, -, hlow⟩ := hi
          have hbound : c.toNat < 0x110000 := by
            rcases c.valid with h | h
            · exact Nat.lt_trans h (by decide)
            · exact h.2
          change [charOfCode (Text.digitsCode 0 high), charOfCode (Text.digitsCode 0 low)] = _
          rw [hhigh.code_eq, hlow.code_eq, Token.charOfCode_surrogate (by omega) (by omega),
            Token.charOfCode_surrogate (by omega) (by omega)]
          rfl
  | lineEnd part =>
      have hends : ∀ p ∈ lineContinuations, p.value = [] := by
        simp only [lineContinuations, List.forall_mem_cons]
        exact ⟨rfl, rfl, rfl, nofun⟩
      exact (List.append_nil _).trans (hends part hi)

/-- What is read is what is spelled, if nothing is spelled by a surrogate pair. -/
theorem flatMap_read_eq_iff {quote : Char} {items : List StringItem}
    (hitems : ∀ i ∈ items, i.IsWritten quote) :
    items.flatMap read = items.flatMap spelled ↔ ∀ i ∈ items, i.isSurrogates = false := by
  induction items with
  | nil => simp
  | cons i items ih =>
      rw [List.forall_mem_cons] at hitems
      rw [List.flatMap_cons, List.flatMap_cons, List.forall_mem_cons, ← ih hitems.2, read]
      cases hi : i.isSurrogates with
      | false => simp
      | true =>
          refine iff_of_false (fun h => ?_) (by simp)
          -- a surrogate pair spells a character beyond the replacement character
          obtain ⟨c, high, low, rfl⟩ : ∃ c high low, i = .char c (.surrogates high low) := by
            obtain ⟨c, _ | _ | _ | _ | _ | ⟨high, low⟩⟩ | part := i <;> cases hi
            exact ⟨c, high, low, rfl⟩
          have hc : '\uFFFD' = c := (List.cons.inj h).1
          have hlow := hitems.1.1
          rw [← hc] at hlow
          exact absurd hlow (by decide)

end StringItem

/-- A string literal is read as a whole, and as the string that it spells, except that a character
that is spelled by a surrogate pair is read as two replacement characters. -/
theorem Token.string_literal {quote : Char} {items : List StringItem} {s : String}
    (hquote : quote = '"' ∨ quote = '\'') (hitems : ∀ i ∈ items, i.IsWritten quote)
    (hs : items.flatMap StringItem.spelled = s.toList) :
    let literal := StringItem.literal quote items
    let value := String.ofList (items.flatMap StringItem.read)
    ofChars literal = [⟨.string value, ⟨0, Text.byteLength literal⟩, false⟩,
        ⟨.endOfInput, ⟨Text.byteLength literal, Text.byteLength literal⟩, false⟩] ∧
      (∀ afterOperand o rest, tokensFrom afterOperand ⟨o, literal ++ rest⟩ =
        ⟨.string value, ⟨o, o + Text.byteLength literal⟩, false⟩ ::
          tokensFrom true ⟨o + Text.byteLength literal, rest⟩) ∧
      (value = s ↔ ∀ i ∈ items, i.isSurrogates = false) := by
  intro literal value
  let l : StringLiteral := ⟨quote, items.flatMap StringItem.parts, hquote, fun p hp => by
    obtain ⟨i, hi, hp⟩ := List.mem_flatMap.1 hp
    exact StringItem.isWritten_parts (hitems i hi) p hp⟩
  have hchars : l.chars = literal := by
    simp only [l, literal, StringLiteral.chars, StringItem.literal, List.flatMap_assoc]
  have hvalue : l.value = value := by
    simp only [l, value, StringLiteral.value, List.flatMap_assoc]
    rw [List.flatMap_congr fun i hi => StringItem.flatMap_value_parts (hitems i hi)]
  have hread : ∀ afterOperand o rest, tokensFrom afterOperand ⟨o, literal ++ rest⟩ =
      ⟨.string value, ⟨o, o + Text.byteLength literal⟩, false⟩ ::
        tokensFrom true ⟨o + Text.byteLength literal, rest⟩ := by
    rw [← hchars, ← hvalue]
    exact l.tokensFrom_chars
  refine ⟨?_, hread, ?_⟩
  · have hall := hread false 0 []
    rw [List.append_nil, Nat.zero_add] at hall
    have hend : next true ⟨Text.byteLength literal, []⟩ =
        (⟨.endOfInput, ⟨Text.byteLength literal, Text.byteLength literal⟩, false⟩,
          ⟨Text.byteLength literal, []⟩) := rfl
    rw [ofChars, hall, tokensFrom_of_next hend, if_pos rfl]
  · rw [← StringItem.flatMap_read_eq_iff hitems, hs, ← String.toList_inj, String.toList_ofList]

/-- A string in single quotes with several spellings, and a line end in between. -/
def mixedSpellings : List StringItem :=
  [.char 'a' .raw, .char 'b' (.hex ['6', '2']), .char 'c' (.unicode ['0', '0', '6', '3']),
   .lineEnd .returnFeed, .char '😀' (.braced ['1', 'F', '6', '0', '0']), .char '\n' (.single 'n'),
   .char '"' .raw]

/-- The string with several spellings is read as the characters that they spell. -/
theorem Token.string_literal_mixedSpellings :
    (∀ i ∈ mixedSpellings, i.IsWritten '\'') ∧
      mixedSpellings.flatMap StringItem.spelled = "abc😀\n\"".toList ∧
      ofChars "'a\\x62\\u0063\\\r\n\\u\x7b1F600\x7d\\n\"'".toList =
        [⟨.string "abc😀\n\"", ⟨0, 28⟩, false⟩, ⟨.endOfInput, ⟨28, 28⟩, false⟩] := by
  have hitems : ∀ i ∈ mixedSpellings, i.IsWritten '\'' := by decide +kernel
  have hspelled : mixedSpellings.flatMap StringItem.spelled = "abc😀\n\"".toList := by decide
  obtain ⟨htokens, -, hvalue⟩ := string_literal (.inr rfl) hitems hspelled
  rw [hvalue.2 (by decide)] at htokens
  exact ⟨hitems, hspelled, htokens⟩

/-- A character that is spelled by a surrogate pair is read as another string. -/
theorem Token.exists_string_literal_ne : ∃ items s,
    (∀ i ∈ items, i.IsWritten '"') ∧ items.flatMap StringItem.spelled = s.toList ∧
      (ofChars (StringItem.literal '"' items)).map Token.kind =
        [.string "\uFFFD\uFFFD", .endOfInput] ∧ "\uFFFD\uFFFD" ≠ s :=
  ⟨[.char '😀' (.surrogates ['D', '8', '3', 'D'] ['D', 'E', '0', '0'])], "😀",
    by decide +kernel, by decide, by decide +kernel, by decide⟩

end ModuleGraph
