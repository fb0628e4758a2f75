import ModuleGraph.Proofs.StringLiterals

/-!
# Written tokens

The tokens that declarations are written with, and how they are written: words as they are, strings
in double quotes with escapes. Read behind a gap, and in front of a blank or a mark, a written token
is read back (`Token.next_lexeme`).
-/

namespace ModuleGraph

/-- An identifier name, reserved or not. -/
structure Word where
  name : String
  isName : Text.isIdentifierName name.toList = true

/-- A name that can be bound: an identifier name that is no reserved word. -/
structure LocalName extends Word where
  unreserved : Keyword.ofWord? name = none

/-- A token that declarations are written with. -/
inductive Lexeme where
  | word (word : Word)
  | string (value : String)
  | star
  | leftBrace
  | rightBrace
  | comma
  | semicolon

/-- What stands between two written tokens. -/
inductive Gap where
  | nothing
  | space
  | line

namespace Gap

/-- The characters of a gap. -/
def chars : Gap → List Char
  | .nothing => []
  | .space => [' ']
  | .line => ['\n']

/-- Whether a line ends in a gap. -/
def endsLine : Gap → Bool
  | .line => true
  | _ => false

end Gap

namespace Text

/-- How a character is written between double quotes. -/
def escaped (c : Char) : List Char :=
  if c = '"' ∨ c = '\\' then ['\\', c]
  else if c = '\n' then ['\\', 'n']
  else if c = '\r' then ['\\', 'r']
  else [c]

/-- A string in double quotes. -/
def quoted (value : String) : List Char :=
  '"' :: value.toList.flatMap escaped ++ ['"']

end Text

namespace Lexeme

/-- The characters of a written token. -/
def chars : Lexeme → List Char
  | .word w => w.name.toList
  | .string value => Text.quoted value
  | .star => ['*']
  | .leftBrace => ['\x7b']
  | .rightBrace => ['\x7d']
  | .comma => [',']
  | .semicolon => [';']

/-- The kind of a written token. -/
def kind : Lexeme → Token.Kind
  | .word w => Token.wordKind w.name
  | .string value => .string value
  | .star => .star
  | .leftBrace => .leftBrace
  | .rightBrace => .rightBrace
  | .comma => .comma
  | .semicolon => .semicolon

end Lexeme

/-- No written token is the end of the input. -/
theorem Lexeme.kind_ne_endOfInput (l : Lexeme) : l.kind ≠ .endOfInput := by
  cases l with
  | word w =>
      rw [Lexeme.kind, Token.wordKind]
      split <;> simp
  | _ => simp [Lexeme.kind]

/-- A local name is read as an identifier. -/
theorem LocalName.wordKind_name (n : LocalName) : Token.wordKind n.name = .identifier n.name := by
  rw [Token.wordKind, n.unreserved]

namespace Text

/-- The code points of blank characters. -/
def blankCodes : List Nat :=
  [9, 10, 11, 12, 13, 0x20, 0x85, 0xA0, 0x1680, 0x2000, 0x2001, 0x2002, 0x2003, 0x2004, 0x2005,
   0x2006, 0x2007, 0x2008, 0x2009, 0x200A, 0x2028, 0x2029, 0x202F, 0x205F, 0x3000, 0xFEFF]

/-- Every blank character is listed by its code point. -/
theorem toNat_mem_blankCodes {c : Char} (h : isBlank c = true) : c.toNat ∈ blankCodes := by
  have hcode : c.toNat = 0xFEFF ∨ isWhiteSpace c = true := by
    rw [isBlank, Bool.or_eq_true, beq_iff_eq] at h
    exact h.symm.imp_left fun h => by rw [h]; rfl
  simp only [blankCodes, isWhiteSpace, Bool.or_eq_true, Bool.and_eq_true, decide_eq_true_eq,
    beq_iff_eq, List.mem_cons, List.not_mem_nil] at hcode ⊢
  omega

/-- No blank character continues an identifier. -/
theorem isIdentifierContinue_of_mem_blankCodes :
    ∀ n ∈ blankCodes, isIdentifierContinue (Char.ofNat n) = false := by
  decide +kernel

/-- No name goes on with a blank. -/
theorem isIdentifierContinue_of_isBlank {c : Char} (h : isBlank c = true) :
    isIdentifierContinue c = false := by
  have hcontinue := isIdentifierContinue_of_mem_blankCodes _ (toNat_mem_blankCodes h)
  rwa [Char.ofNat_toNat] at hcontinue

/-- No name starts with a blank. -/
theorem isBlank_of_isIdentifierStart {c : Char} (h : isIdentifierStart c = true) :
    isBlank c = false := by
  rw [Bool.eq_false_iff]
  intro hblank
  have hcontinue := isIdentifierContinue_of_isIdentifierStart h
  rw [isIdentifierContinue_of_isBlank hblank] at hcontinue
  cases hcontinue

/-- No name starts with a digit. -/
theorem isDigit_of_isIdentifierStart {c : Char} (h : isIdentifierStart c = true) :
    c.isDigit = false := by
  rw [Bool.eq_false_iff]
  intro hdigit
  have hcode : 48 ≤ c.toNat ∧ c.toNat ≤ 57 := by
    simpa [Char.isDigit, UInt32.le_iff_toNat_le] using hdigit
  have hstart : ∀ n < 58, 48 ≤ n → isIdentifierStart (Char.ofNat n) = false := by decide
  have hname := hstart c.toNat (by omega) hcode.1
  rw [Char.ofNat_toNat, h] at hname
  cases hname

end Text

namespace Token

/-- Whether a written token can end in front of some text: there the text is over, or a blank or a
mark comes next. -/
def Parted (cs : List Char) : Prop :=
  ∀ c ∈ cs.head?, c ∈ [' ', '\n', ',', ';']

/-! ## Words -/

/-- Characters are taken up to the first one that does not have the property. -/
theorem takeWhile_append {p : Char → Bool} {taken rest : List Char}
    (htaken : taken.all p = true) (hrest : ∀ c ∈ rest.head?, p c = false) (o : Nat) :
    takeWhile p o (taken ++ rest) = (taken, ⟨o + Text.byteLength taken, rest⟩) := by
  induction taken generalizing o with
  | nil =>
      cases rest with
      | nil => rfl
      | cons c cs =>
          have hc : p c = false := hrest c rfl
          simp [takeWhile, hc, Text.byteLength]
  | cons c taken ih =>
      rw [List.all_cons, Bool.and_eq_true] at htaken
      rw [List.cons_append, takeWhile, if_pos htaken.1, ih htaken.2]
      simp [Text.byteLength, Nat.add_assoc]

/-- What parts written tokens does not continue an identifier. -/
theorem isIdentifierContinue_of_parted {cs : List Char} (h : Parted cs) :
    ∀ c ∈ cs.head?, Text.isIdentifierContinue c = false := by
  intro c hc
  have hmem := h c hc
  simp only [List.mem_cons, List.not_mem_nil, or_false] at hmem
  rcases hmem with rfl | rfl | rfl | rfl <;> decide

/-- A word starts with the first character of a name. -/
theorem plain_word {c : Char} (h : Text.isIdentifierStart c = true) (afterOperand : Bool) (o : Nat)
    (cs : List Char) : plain afterOperand o c cs = word c (o + c.utf8Size) cs := by
  have hne : ∀ d : Char, Text.isIdentifierStart d = false → c ≠ d := by
    rintro d hd rfl
    rw [h] at hd
    cases hd
  have hmarks : c ∉ marks := by
    intro hc
    have hstart : (marks.all fun d => !Text.isIdentifierStart d) = true := by decide
    have hmark := List.all_eq_true.1 hstart c hc
    rw [h] at hmark
    cases hmark
  -- no other token starts with such a character
  rw [plain_of_not_mem_marks hmarks, if_neg fun h => hne '.' (by decide) h.1,
    if_neg fun h => hne '.' (by decide) h.1, if_neg fun h => hne '/' (by decide) h.1,
    if_neg (by simp [Text.isDigit_of_isIdentifierStart h]), if_pos h]

/-- A word is read as a whole where no character comes next that would continue it. -/
theorem plain_chars_word (w : Word) {rest : List Char}
    (hrest : ∀ c ∈ rest.head?, Text.isIdentifierContinue c = false) (afterOperand : Bool)
    (o : Nat) : ∃ c cs, w.name.toList = c :: cs ∧ Text.isIdentifierStart c = true ∧
      plain afterOperand o c (cs ++ rest) =
        (wordKind w.name, ⟨o + Text.byteLength (c :: cs), rest⟩) := by
  have hname := w.isName
  cases hchars : w.name.toList with
  | nil =>
      rw [hchars] at hname
      cases hname
  | cons c cs =>
      rw [hchars, Text.isIdentifierName, Bool.and_eq_true] at hname
      refine ⟨c, cs, rfl, hname.1, ?_⟩
      have hword : String.ofList (c :: cs) = w.name := by rw [← hchars, String.ofList_toList]
      rw [plain_word hname.1, word, takeWhile_append hname.2 hrest, Prod.map_apply, hword,
        Text.byteLength, ← Nat.add_assoc]
      rfl

/-- An identifier does not start with a backquote. -/
theorem ne_backquote_of_isIdentifierStart {c : Char} (h : Text.isIdentifierStart c = true) :
    c ≠ '\x60' := by
  rintro rfl
  exact absurd h (by decide)

/-- A word is read back in front of what parts it from the next token. -/
theorem significant_word (w : Word) {rest : List Char} (hrest : Parted rest) (afterOperand : Bool)
    (o : Nat) : ∃ c cs, w.name.toList = c :: cs ∧ Text.isIdentifierStart c = true ∧
      significant afterOperand o c (cs ++ rest) =
        (wordKind w.name, ⟨o + Text.byteLength (c :: cs), rest⟩) := by
  obtain ⟨c, cs, hchars, hstart, hread⟩ :=
    plain_chars_word w (isIdentifierContinue_of_parted hrest) afterOperand o
  exact ⟨c, cs, hchars, hstart,
    (if_neg (ne_backquote_of_isIdentifierStart hstart)).trans hread⟩

/-! ## Strings -/

/-- A character is written as a part of a string. -/
theorem exists_part_escaped (c : Char) : ∃ p : StringPart, p.chars = Text.escaped c ∧
    p.value = [c] ∧ p.IsWritten '"' := by
  unfold Text.escaped
  split
  · next hquote => obtain rfl | rfl := hquote <;> exact ⟨.escape _, rfl, rfl, by decide⟩
  next hquote =>
  split
  · next hline => exact ⟨.escape 'n', rfl, hline ▸ rfl, by decide⟩
  next hline =>
  split
  · next hreturn => exact ⟨.escape 'r', rfl, hreturn ▸ rfl, by decide⟩
  · exact ⟨.raw c, rfl, rfl, fun h => hquote (.inl h), fun h => hquote (.inr h), hline⟩

/-- Escaped characters are the parts of a string with these characters as its value. -/
theorem exists_parts_escaped (cs : List Char) : ∃ parts : List StringPart,
    parts.flatMap StringPart.chars = cs.flatMap Text.escaped ∧
      parts.flatMap StringPart.value = cs ∧ ∀ p ∈ parts, p.IsWritten '"' := by
  induction cs with
  | nil => exact ⟨[], rfl, rfl, nofun⟩
  | cons c cs ih =>
      obtain ⟨p, hchars, hvalue, hp⟩ := exists_part_escaped c
      obtain ⟨parts, hallChars, hallValue, hparts⟩ := ih
      refine ⟨p :: parts, ?_, ?_, List.forall_mem_cons.2 ⟨hp, hparts⟩⟩
      · rw [List.flatMap_cons, List.flatMap_cons, hchars, hallChars]
      · rw [List.flatMap_cons, hvalue, hallValue, List.singleton_append]

/-- A string in double quotes is a literal of that string. -/
theorem exists_literal_quoted (value : String) : ∃ l : StringLiteral,
    l.quote = '"' ∧ l.chars = Text.quoted value ∧ l.value = value := by
  obtain ⟨parts, hchars, hvalue, hparts⟩ := exists_parts_escaped value.toList
  refine ⟨⟨'"', parts, .inl rfl, hparts⟩, rfl, ?_, ?_⟩
  · rw [StringLiteral.chars, hchars]
    rfl
  · rw [StringLiteral.value, hvalue, String.ofList_toList]

/-! ## Written tokens -/

/-- A star is read back as itself. -/
theorem operator_star {rest : List Char} (hrest : Parted rest) (o : Nat) :
    operator o '*' rest = (.star, ⟨o + 1, rest⟩) := by
  cases rest with
  | nil => rfl
  | cons c cs =>
      have hmem := hrest c rfl
      simp only [List.mem_cons, List.not_mem_nil, or_false] at hmem
      rcases hmem with rfl | rfl | rfl | rfl <;> rfl

/-- A written token is read back in front of what parts it from the next one. -/
theorem significant_lexeme (l : Lexeme) {rest : List Char} (hrest : Parted rest)
    (afterOperand : Bool) (o : Nat) : ∃ c cs, l.chars = c :: cs ∧ Text.isBlank c = false ∧ c ≠ '/' ∧
      significant afterOperand o c (cs ++ rest) =
        (l.kind, ⟨o + Text.byteLength l.chars, rest⟩) := by
  cases l with
  | word w =>
      obtain ⟨c, cs, hchars, hstart, hread⟩ := significant_word w hrest afterOperand o
      refine ⟨c, cs, hchars, Text.isBlank_of_isIdentifierStart hstart, ?_, ?_⟩
      · rintro rfl
        exact absurd hstart (by decide)
      · rw [hread, ← hchars]
        rfl
  | string value =>
      obtain ⟨l, hquote, hchars, hvalue⟩ := exists_literal_quoted value
      obtain ⟨cs, hcs, hread⟩ := l.plain_chars afterOperand o rest
      rw [hquote] at hcs hread
      rw [hchars] at hcs hread
      rw [hvalue] at hread
      have htail : cs = value.toList.flatMap Text.escaped ++ ['"'] ++ rest :=
        (List.cons.inj hcs).2.symm
      exact ⟨'"', _, rfl, by decide, by decide, htail ▸ hread⟩
  | star => exact ⟨'*', [], rfl, by decide, by decide, operator_star hrest o⟩
  | leftBrace => exact ⟨'\x7b', [], rfl, by decide, by decide, rfl⟩
  | rightBrace => exact ⟨'\x7d', [], rfl, by decide, by decide, rfl⟩
  | comma => exact ⟨',', [], rfl, by decide, by decide, rfl⟩
  | semicolon => exact ⟨';', [], rfl, by decide, by decide, rfl⟩

/-- A gap is skipped, and says whether a line ends in it. -/
theorem skipBlank_gap (g : Gap) {c : Char} (hblank : Text.isBlank c = false) (hslash : c ≠ '/')
    (o : Nat) (cs : List Char) : skipBlank .outside false o (g.chars ++ c :: cs) =
      (g.endsLine, ⟨o + Text.byteLength g.chars, c :: cs⟩) := by
  have hstop : ∀ newline o, skipBlank .outside newline o (c :: cs) = (newline, ⟨o, c :: cs⟩) := by
    intro newline o
    rw [skipBlank_outside (absurd · hslash), hblank, if_neg (by decide)]
  cases g with
  | nothing => exact hstop false o
  | space | line =>
      rw [Gap.chars, List.singleton_append, skipBlank_outside (fun h => absurd h (by decide)),
        if_pos (by decide), hstop]
      rfl

/-- A written token is read back behind a gap. -/
theorem next_lexeme (afterOperand : Bool) (g : Gap) (l : Lexeme) {rest : List Char}
    (hrest : Parted rest) (o : Nat) :
    next afterOperand ⟨o, g.chars ++ (l.chars ++ rest)⟩ =
      (⟨l.kind, ⟨o + Text.byteLength g.chars,
          o + Text.byteLength g.chars + Text.byteLength l.chars⟩, g.endsLine⟩,
        ⟨o + Text.byteLength g.chars + Text.byteLength l.chars, rest⟩) := by
  obtain ⟨c, cs, hchars, hblank, hslash, hread⟩ :=
    significant_lexeme l hrest afterOperand (o + Text.byteLength g.chars)
  rw [next_eq, hchars, List.cons_append, skipBlank_gap g hblank hslash]
  dsimp only [fromHead]
  rw [hread, hchars]

/-- The first token of a text is the one that is written behind its gap. -/
theorem tokensFrom_lexeme (afterOperand : Bool) (g : Gap) (l : Lexeme) {rest : List Char}
    (hrest : Parted rest) (o : Nat) :
    tokensFrom afterOperand ⟨o, g.chars ++ (l.chars ++ rest)⟩ =
      ⟨l.kind, ⟨o + Text.byteLength g.chars,
          o + Text.byteLength g.chars + Text.byteLength l.chars⟩, g.endsLine⟩ ::
        tokensFrom l.kind.endsExpression
          ⟨o + Text.byteLength g.chars + Text.byteLength l.chars, rest⟩ := by
  rw [tokensFrom_of_next (next_lexeme afterOperand g l hrest o), if_neg l.kind_ne_endOfInput]

end Token

/-! ## Written texts -/

/-- A written token and whether its line ends behind it. -/
structure Piece where
  lexeme : Lexeme
  endsLine : Bool

/-- Whether nothing stands in front of a mark. -/
def Lexeme.isTight : Lexeme → Bool
  | .comma | .semicolon => true
  | _ => false

namespace Piece

/-- What stands between a written token and those behind it. -/
def gap (p : Piece) (behind : List Piece) : Gap :=
  if p.endsLine then .line
  else if behind.head?.any (·.lexeme.isTight) then .nothing
  else .space

/-- The text of written tokens. -/
def text : List Piece → List Char
  | [] => []
  | p :: ps => p.lexeme.chars ++ ((gap p ps).chars ++ text ps)

/-- The tokens of a text from the offset `o` on. -/
def tokens (o : Nat) (newline : Bool) : List Piece → List Token
  | [] => [⟨.endOfInput, ⟨o, o⟩, newline⟩]
  | p :: ps =>
    ⟨p.lexeme.kind, ⟨o, o + Text.byteLength p.lexeme.chars⟩, newline⟩ ::
      tokens (o + Text.byteLength p.lexeme.chars + Text.byteLength (gap p ps).chars) p.endsLine ps

/-- A line ends behind a written token if the token says so. -/
theorem endsLine_gap (p : Piece) (ps : List Piece) : (gap p ps).endsLine = p.endsLine := by
  unfold gap
  cases p.endsLine with
  | true => rfl
  | false =>
      rw [if_neg (by decide)]
      split <;> rfl

/-- What stands between written tokens parts them. -/
theorem parted_gap (p : Piece) (ps : List Piece) :
    Token.Parted ((gap p ps).chars ++ text ps) := by
  unfold gap
  split
  · simp [Token.Parted, Gap.chars]
  split
  · next htight =>
      cases ps with
      | nil => cases htight
      | cons q ps =>
          change q.lexeme.isTight = true at htight
          cases hq : q.lexeme <;> rw [hq] at htight <;> cases htight
          all_goals simp [Token.Parted, Gap.chars, text, hq, Lexeme.chars]
  · simp [Token.Parted, Gap.chars]

/-- The tokens of a written text are those that it is written with. -/
theorem tokensFrom_text (afterOperand : Bool) (g : Gap) (o : Nat) (ps : List Piece) :
    Token.tokensFrom afterOperand ⟨o, g.chars ++ text ps⟩ =
      tokens (o + Text.byteLength g.chars) g.endsLine ps := by
  induction ps generalizing afterOperand g o with
  | nil =>
      have hnext : Token.next afterOperand ⟨o, g.chars ++ text []⟩ =
          (⟨.endOfInput, ⟨o + Text.byteLength g.chars, o + Text.byteLength g.chars⟩, g.endsLine⟩,
            ⟨o + Text.byteLength g.chars, []⟩) := by
        cases g <;> rfl
      rw [Token.tokensFrom_of_next hnext, if_pos rfl]
      rfl
  | cons p ps ih =>
      rw [text, Token.tokensFrom_lexeme _ g p.lexeme (parted_gap p ps), ih, endsLine_gap]
      rfl

/-- A written text has the written tokens. -/
theorem ofChars_text (ps : List Piece) : Token.ofChars (text ps) = tokens 0 false ps :=
  tokensFrom_text false .nothing 0 ps

end Piece

end ModuleGraph
