import ModuleGraph.Proofs.Lexemes
import ModuleGraph.Proofs.LineBreaks
import ModuleGraph.Proofs.LineEnds

/-!
# Template literals

A template has text and substitutions, and a substitution has code, in which templates can stand
again. The scanner reads both in one loop that remembers the open braces of every substitution
around it. Each piece of a template takes it from one place to another (`Token.Reaches`): a piece of
text back into the same text, code back to the same depth. So a template is read up to the backquote
that closes it (`Token.tokensFrom_template`), whatever quotes, braces and backquotes stand inside
of it.

A line comment in a substitution ends where the scanner takes the line to end. Behind a line or
paragraph separator it goes on, past the end of the template (`Token.exists_template_unterminated`).
-/

namespace ModuleGraph

/-! ## Templates as they are written -/

/-- A comment. A line comment has the character that ends its line. -/
inductive Comment where
  | line (body : List Char) (stop : Char)
  | block (body : List Char)

namespace Comment

/-- The characters of a comment. -/
def chars : Comment → List Char
  | .line body stop => '/' :: '/' :: body ++ [stop]
  | .block body => '/' :: '*' :: body ++ ['*', '/']

/-- Whether a comment ends where it is written to end, if the characters of `ends` end a line. -/
def IsWritten (ends : Char → Bool) : Comment → Prop
  | .line body stop => (∀ d ∈ body, ends d = false) ∧ ends stop = true
  | .block body => ¬ ['*', '/'] <:+: body

instance (ends : Char → Bool) : (c : Comment) → Decidable (c.IsWritten ends)
  | .line body stop =>
    -- the characters of the body are searched, and not all that there are
    have : Decidable (∀ d ∈ body, ends d = false) := List.decidableBAll _ body
    inferInstanceAs (Decidable (_ ∧ ends stop = true))
  | .block _ => inferInstanceAs (Decidable (¬ _))

end Comment

/-- A piece of code that nests nothing. -/
inductive Atom where
  | word (word : Word)
  | string (literal : StringLiteral)
  | comment (comment : Comment)

namespace Atom

/-- The characters of a piece of code. -/
def chars : Atom → List Char
  | .word w => w.name.toList
  | .string l => l.chars
  | .comment c => c.chars

/-- Whether a comment ends where it is written to end. -/
def IsWritten (ends : Char → Bool) : Atom → Prop
  | .comment c => c.IsWritten ends
  | _ => True

instance (ends : Char → Bool) : (a : Atom) → Decidable (a.IsWritten ends)
  | .comment c => inferInstanceAs (Decidable (c.IsWritten ends))
  | .word _ | .string _ => inferInstanceAs (Decidable True)

/-- Whether a piece of code is a word. -/
def isWord : Atom → Bool
  | .word _ => true
  | _ => false

end Atom

mutual

/-- The text of a template between its backquotes. -/
inductive Template where
  | done
  | char (c : Char) (text : Template)
  | escape (c : Char) (text : Template)
  | substitution (code : TemplateCode) (text : Template)

/-- The code of a substitution or of a pair of braces. White space can stand in front of every
piece, and at the end. -/
inductive TemplateCode where
  | done (blank : List Char)
  | atom (blank : List Char) (atom : Atom) (code : TemplateCode)
  | group (blank : List Char) (inner code : TemplateCode)
  | template (blank : List Char) (text : Template) (code : TemplateCode)

end

mutual

/-- The characters of a template between its backquotes. -/
def Template.chars : Template → List Char
  | .done => []
  | .char c text => [c] ++ text.chars
  | .escape c text => ['\\', c] ++ text.chars
  | .substitution code text => ['$', '\x7b'] ++ (code.chars ++ (['\x7d'] ++ text.chars))

/-- The characters of code. -/
def TemplateCode.chars : TemplateCode → List Char
  | .done blank => blank
  | .atom blank atom code => blank ++ (atom.chars ++ code.chars)
  | .group blank inner code => blank ++ (['\x7b'] ++ (inner.chars ++ (['\x7d'] ++ code.chars)))
  | .template blank text code =>
    blank ++ (['\x60'] ++ (text.chars ++ (['\x60'] ++ code.chars)))

end

/-- The characters of a template. -/
def Template.literal (text : Template) : List Char :=
  '\x60' :: text.chars ++ ['\x60']

/-- Whether code starts with a word, and nothing in front of it. -/
def TemplateCode.startsWithWord : TemplateCode → Bool
  | .atom [] a _ => a.isWord
  | _ => false

mutual

/-- Whether the pieces of a template end where they are written to end, if the characters of `ends`
end the line of a comment. -/
def Template.IsWritten (ends : Char → Bool) : Template → Prop
  | .done => True
  | .char c text => (c ≠ '\x60' ∧ c ≠ '\\' ∧ (c = '$' → text.chars.head? ≠ some '\x7b')) ∧
      text.IsWritten ends
  | .escape _ text => text.IsWritten ends
  | .substitution code text => code.IsWritten ends ∧ text.IsWritten ends

/-- Whether the pieces of code end where they are written to end. No two words stand together with
nothing between them. -/
def TemplateCode.IsWritten (ends : Char → Bool) : TemplateCode → Prop
  | .done blank => blank.all Text.isBlank = true
  | .atom blank a code => blank.all Text.isBlank = true ∧ a.IsWritten ends ∧
      (a.isWord = true → code.startsWithWord = false) ∧ code.IsWritten ends
  | .group blank inner code =>
      blank.all Text.isBlank = true ∧ inner.IsWritten ends ∧ code.IsWritten ends
  | .template blank text code =>
      blank.all Text.isBlank = true ∧ text.IsWritten ends ∧ code.IsWritten ends

end

mutual

/-- Decides whether a template is well written. -/
def Template.decideIsWritten (ends : Char → Bool) :
    (text : Template) → Decidable (text.IsWritten ends)
  | .done => inferInstanceAs (Decidable True)
  | .char _ text =>
    have := Template.decideIsWritten ends text
    inferInstanceAs (Decidable ((_ ∧ _ ∧ (_ → _)) ∧ text.IsWritten ends))
  | .escape _ text => Template.decideIsWritten ends text
  | .substitution code text =>
    have := TemplateCode.decideIsWritten ends code
    have := Template.decideIsWritten ends text
    inferInstanceAs (Decidable (code.IsWritten ends ∧ text.IsWritten ends))

/-- Decides whether code is well written. -/
def TemplateCode.decideIsWritten (ends : Char → Bool) :
    (code : TemplateCode) → Decidable (code.IsWritten ends)
  | .done _ => inferInstanceAs (Decidable (_ = _))
  | .atom _ a code =>
    have := TemplateCode.decideIsWritten ends code
    inferInstanceAs (Decidable (_ ∧ a.IsWritten ends ∧ (_ → _) ∧ code.IsWritten ends))
  | .group _ inner code =>
    have := TemplateCode.decideIsWritten ends inner
    have := TemplateCode.decideIsWritten ends code
    inferInstanceAs (Decidable (_ ∧ inner.IsWritten ends ∧ code.IsWritten ends))
  | .template _ text code =>
    have := Template.decideIsWritten ends text
    have := TemplateCode.decideIsWritten ends code
    inferInstanceAs (Decidable (_ ∧ text.IsWritten ends ∧ code.IsWritten ends))

end

instance (ends : Char → Bool) (text : Template) : Decidable (text.IsWritten ends) :=
  text.decideIsWritten ends

namespace Text

/-- White space has no comments in it. -/
theorem blankParts_of_all {blank : List Char} (h : blank.all isBlank = true) :
    BlankParts False blank [] blank := by
  induction blank with
  | nil => exact .nil
  | cons c blank ih =>
      rw [List.all_cons, Bool.and_eq_true] at h
      exact .char h.1 (ih h.2)

end Text

/-- A comment is a blank to the scanner. -/
theorem Comment.exists_parts {c : Comment} (h : c.IsWritten Text.isLineBreak) :
    ∃ plain comments, Text.BlankParts False plain comments c.chars := by
  have hbreak : ∀ d, Text.isLineBreak d = false → d ≠ '\n' ∧ d ≠ '\r' := by
    intro d hd
    simpa [Text.isLineBreak] using hd
  cases c with
  | line body stop =>
      exact ⟨_, _, .line (fun d hd => hbreak d (h.1 d hd)) (of_decide_eq_true h.2) .nil⟩
  | block body => exact ⟨_, _, .block h .nil⟩

namespace Token

variable {rest cs taken more : List Char} {place place' place'' : TemplatePlace}
  {outer outer' outer'' : List Nat} {depth : Nat} {afterOperand : Bool}

/-! ## Single pieces -/

/-- The scanner gets from one place in a template to another by reading the characters `taken` in
front of `rest`. -/
def Reaches (rest : List Char) (place : TemplatePlace) (outer : List Nat) (taken : List Char)
    (place' : TemplatePlace) (outer' : List Nat) : Prop :=
  ∀ o, templateTail place outer ⟨o, taken ++ rest⟩ =
    templateTail place' outer' ⟨o + Text.byteLength taken, rest⟩

namespace Reaches

/-- The scanner is where it is before it reads anything. -/
theorem nil : Reaches rest place outer [] place outer :=
  fun _ => rfl

/-- The scanner gets from place to place piece by piece. -/
theorem trans (h : Reaches (more ++ rest) place outer taken place' outer')
    (h' : Reaches rest place' outer' more place'' outer'') :
    Reaches rest place outer (taken ++ more) place'' outer'' := by
  intro o
  rw [List.append_assoc, h, h', Text.byteLength_append, Nat.add_assoc]

end Reaches

/-- A character of text leads back into the text. -/
theorem reaches_char {c : Char} (hquote : c ≠ '\x60') (hslash : c ≠ '\\')
    (hdollar : c = '$' → ∀ cs, rest ≠ '\x7b' :: cs) : Reaches rest .text outer [c] .text outer := by
  intro o
  rw [templateTail_text, templateTail_text, List.singleton_append, templateText_cons hslash hdollar,
    if_neg hquote]
  rfl

/-- An escape leads back into the text, whatever is escaped. -/
theorem reaches_escape (c : Char) : Reaches rest .text outer ['\\', c] .text outer := by
  intro o
  rw [templateTail_text, templateTail_text, Text.byteLength, Text.byteLength, Text.byteLength,
    Nat.add_zero, ← Nat.add_assoc]
  rfl

/-- A dollar sign and a brace open a substitution. -/
theorem reaches_opening : Reaches rest .text outer ['$', '\x7b'] (.code 0 false) outer := by
  intro o
  rw [templateTail_text]
  rfl

/-- A backquote closes a template inside of a substitution. -/
theorem reaches_closing :
    Reaches rest .text (depth :: outer) ['\x60'] (.code depth true) outer := by
  intro o
  rw [templateTail_text]
  rfl

/-- A blank in a substitution is skipped. -/
theorem reaches_blank {plain comments blank : List Char}
    (h : Text.BlankParts False plain comments blank) : Reaches rest (.code depth afterOperand) outer
      blank (.code depth afterOperand) outer := by
  intro o
  have hskip := skipBlank_newline .outside (Text.crossesLine plain comments) false
    (o + Text.byteLength blank) rest
  rw [Bool.or_false] at hskip
  rw [templateTail_code, templateTail_code, skipBlank_blank h False.elim, Bool.false_or, hskip]

/-- A token in a substitution that is no template is read by itself. -/
theorem templateTail_plain {c : Char} (hquote : c ≠ '\x60') (hblank : Text.isBlank c = false)
    (hslash : c ≠ '/') (o : Nat) :
    templateTail (.code depth afterOperand) outer ⟨o, c :: cs⟩ =
      afterToken depth outer (plain afterOperand o c cs).1 (plain afterOperand o c cs).2 := by
  rw [templateTail_code, skipBlank_outside (absurd · hslash), hblank, if_neg (by decide), atToken,
    if_neg hquote]

/-- A backquote in code opens a template. -/
theorem reaches_backquote :
    Reaches rest (.code depth afterOperand) outer ['\x60'] .text (depth :: outer) := by
  intro o
  rw [templateTail_code, List.singleton_append,
    skipBlank_outside (fun h => absurd h (by decide)), if_neg (by decide), atToken, if_pos rfl]
  rfl

/-- A brace that opens in code leads one level down. -/
theorem reaches_leftBrace : Reaches rest (.code depth afterOperand) outer ['\x7b']
    (.code (depth + 1) false) outer :=
  fun o => templateTail_plain (by decide) (by decide) (by decide) o

/-- A brace that closes one in code leads one level up. -/
theorem reaches_rightBrace : Reaches rest (.code (depth + 1) afterOperand) outer ['\x7d']
    (.code depth true) outer :=
  fun o => templateTail_plain (by decide) (by decide) (by decide) o

/-- A brace that closes none in code ends the substitution. -/
theorem reaches_end : Reaches rest (.code 0 afterOperand) outer ['\x7d'] .text outer :=
  fun o => templateTail_plain (by decide) (by decide) (by decide) o

/-- A word leads back to the same depth of code. -/
theorem reaches_word (w : Word) (hrest : ∀ c ∈ rest.head?, Text.isIdentifierContinue c = false) :
    Reaches rest (.code depth afterOperand) outer w.name.toList
      (.code depth (wordKind w.name).endsExpression) outer := by
  intro o
  obtain ⟨c, cs, hchars, hstart, hread⟩ := plain_chars_word w hrest afterOperand o
  have hslash : c ≠ '/' := by
    rintro rfl
    exact absurd hstart (by decide)
  rw [hchars, List.cons_append, templateTail_plain (ne_backquote_of_isIdentifierStart hstart)
    (Text.isBlank_of_isIdentifierStart hstart) hslash, hread, wordKind]
  cases Keyword.ofWord? w.name <;> rfl

/-- A string leads back to the same depth of code, whatever stands in it. -/
theorem reaches_string (l : StringLiteral) :
    Reaches rest (.code depth afterOperand) outer l.chars (.code depth true) outer := by
  intro o
  obtain ⟨cs, hcs, hread⟩ := l.plain_chars afterOperand o rest
  rw [hcs, templateTail_plain (l.quote_ne (by decide) (by decide)) l.isBlank_quote
    (l.quote_ne (by decide) (by decide)), hread]
  rfl

/-- A piece of code that nests nothing leads back to the same depth. -/
theorem reaches_atom {a : Atom} (ha : a.IsWritten Text.isLineBreak)
    (hrest : a.isWord = true → ∀ c ∈ rest.head?, Text.isIdentifierContinue c = false) :
    ∃ afterOperand', Reaches rest (.code depth afterOperand) outer a.chars
      (.code depth afterOperand') outer := by
  cases a with
  | word w => exact ⟨_, reaches_word w (hrest rfl)⟩
  | string l => exact ⟨_, reaches_string l⟩
  | comment c =>
      obtain ⟨plain, comments, hparts⟩ := Comment.exists_parts ha
      exact ⟨_, reaches_blank hparts⟩

end Token

/-! ## Whole templates -/

open Token

/-- A word ends in front of a blank, and in front of what it cannot go on with. -/
theorem isIdentifierContinue_head_blank {blank more : List Char}
    (hblank : blank.all Text.isBlank = true)
    (hmore : blank = [] → ∀ c ∈ more.head?, Text.isIdentifierContinue c = false) :
    ∀ c ∈ (blank ++ more).head?, Text.isIdentifierContinue c = false := by
  cases blank with
  | nil => exact hmore rfl
  | cons b blank =>
      rintro c ⟨⟩
      rw [List.all_cons, Bool.and_eq_true] at hblank
      exact Text.isIdentifierContinue_of_isBlank hblank.1

/-- A word ends in front of code that does not start with a word. -/
theorem TemplateCode.isIdentifierContinue_head {code : TemplateCode}
    (h : code.IsWritten Text.isLineBreak) (hword : code.startsWithWord = false)
    (rest : List Char) :
    ∀ c ∈ (code.chars ++ '\x7d' :: rest).head?, Text.isIdentifierContinue c = false := by
  have hmark : ∀ d more, Text.isIdentifierContinue d = false →
      ∀ c ∈ (d :: more).head?, Text.isIdentifierContinue c = false := by
    rintro d more hd c ⟨⟩
    exact hd
  cases code with
  | done blank => exact isIdentifierContinue_head_blank h fun _ => hmark _ _ (by decide)
  | atom blank a code =>
      rw [TemplateCode.chars, List.append_assoc]
      refine isIdentifierContinue_head_blank h.1 fun hnil => ?_
      subst hnil
      cases a with
      | word w => cases hword
      | string l =>
          refine hmark l.quote _ ?_
          obtain hquote | hquote := l.isQuote <;> rw [hquote] <;> decide
      | comment c => cases c <;> exact hmark '/' _ (by decide)
  | group blank inner code =>
      rw [TemplateCode.chars, List.append_assoc]
      exact isIdentifierContinue_head_blank h.1 fun _ => hmark _ _ (by decide)
  | template blank text code =>
      rw [TemplateCode.chars, List.append_assoc]
      exact isIdentifierContinue_head_blank h.1 fun _ => hmark _ _ (by decide)

/-- What does not start with a brace does not in front of a backquote either. -/
theorem append_backquote_ne {chars : List Char} (h : chars.head? ≠ some '\x7b')
    (rest cs : List Char) : chars ++ '\x60' :: rest ≠ '\x7b' :: cs := by
  intro heq
  cases chars with
  | nil => cases heq
  | cons c chars => exact h (congrArg some (List.cons.inj heq).1)

mutual

/-- The text of a template is read up to the backquote behind it. -/
theorem Template.reaches (text : Template) (h : text.IsWritten Text.isLineBreak) (outer : List Nat)
    (rest : List Char) : Reaches ('\x60' :: rest) .text outer text.chars .text outer := by
  cases text with
  | done => exact .nil
  | char c text =>
      obtain ⟨⟨hquote, hslash, hdollar⟩, htext⟩ := h
      exact (reaches_char hquote hslash fun hc => append_backquote_ne (hdollar hc) rest).trans
        (text.reaches htext outer rest)
  | escape c text => exact (reaches_escape c).trans (text.reaches h outer rest)
  | substitution code text =>
      obtain ⟨hcode, htext⟩ := h
      obtain ⟨_, hread⟩ := code.reaches hcode 0 false outer (text.chars ++ '\x60' :: rest)
      exact reaches_opening.trans (hread.trans (reaches_end.trans
        (text.reaches htext outer rest)))

/-- Code is read up to the brace behind it, and as many braces are open there as before it. -/
theorem TemplateCode.reaches (code : TemplateCode) (h : code.IsWritten Text.isLineBreak)
    (depth : Nat) (afterOperand : Bool) (outer : List Nat) (rest : List Char) :
    ∃ afterOperand', Reaches ('\x7d' :: rest) (.code depth afterOperand) outer code.chars
      (.code depth afterOperand') outer := by
  cases code with
  | done blank => exact ⟨_, reaches_blank (Text.blankParts_of_all h)⟩
  | atom blank a code =>
      obtain ⟨hblank, ha, hword, hcode⟩ := h
      obtain ⟨afterAtom, hatom⟩ := reaches_atom ha
        fun hw => TemplateCode.isIdentifierContinue_head hcode (hword hw) rest
      obtain ⟨_, hread⟩ := code.reaches hcode depth afterAtom outer rest
      exact ⟨_, (reaches_blank (Text.blankParts_of_all hblank)).trans (hatom.trans hread)⟩
  | group blank inner code =>
      obtain ⟨hblank, hinner, hcode⟩ := h
      obtain ⟨_, hgroup⟩ := inner.reaches hinner (depth + 1) false outer
        (code.chars ++ '\x7d' :: rest)
      obtain ⟨_, hread⟩ := code.reaches hcode depth true outer rest
      exact ⟨_, (reaches_blank (Text.blankParts_of_all hblank)).trans
        (reaches_leftBrace.trans (hgroup.trans (reaches_rightBrace.trans hread)))⟩
  | template blank text code =>
      obtain ⟨hblank, htext, hcode⟩ := h
      have hnested := text.reaches htext (depth :: outer) (code.chars ++ '\x7d' :: rest)
      obtain ⟨_, hread⟩ := code.reaches hcode depth true outer rest
      exact ⟨_, (reaches_blank (Text.blankParts_of_all hblank)).trans
        (reaches_backquote.trans (hnested.trans (reaches_closing.trans hread)))⟩

end

/-- A template is read up to the backquote that closes it. -/
theorem Template.templateTail_literal {text : Template} (h : text.IsWritten Text.isLineBreak)
    (o : Nat) (rest : List Char) : templateTail .text [] ⟨o, text.chars ++ '\x60' :: rest⟩ =
      (.ok (), ⟨o + Text.byteLength (text.chars ++ ['\x60']), rest⟩) := by
  rw [text.reaches h [] rest o, templateTail_text, Text.byteLength_append, ← Nat.add_assoc]
  rfl

/-- A template is one token whose text is the template as it is written, whatever stands inside of
it and whatever comes behind it. -/
theorem Token.tokensFrom_template {text : Template} (h : text.IsWritten Text.isLineBreak)
    (afterOperand : Bool) (o : Nat) (rest : List Char) :
    tokensFrom afterOperand ⟨o, text.literal ++ rest⟩ =
      ⟨.template (String.ofList text.literal), ⟨o, o + Text.byteLength text.literal⟩, false⟩ ::
        tokensFrom true ⟨o + Text.byteLength text.literal, rest⟩ := by
  have hcons : text.literal ++ rest = '\x60' :: (text.chars ++ '\x60' :: rest) := by
    simp [Template.literal]
  have hlength : o + 1 + Text.byteLength (text.chars ++ ['\x60']) =
      o + Text.byteLength text.literal := by
    rw [Template.literal, List.cons_append, Text.byteLength, Nat.add_assoc]
    rfl
  have hread := Template.templateTail_literal h (o + 1) rest
  rw [hlength] at hread
  have hkind : template ('\x60' :: (text.chars ++ '\x60' :: rest)) o
      (text.chars ++ '\x60' :: rest) = (.template (String.ofList text.literal),
        ⟨o + Text.byteLength text.literal, rest⟩) := by
    simp only [template, hread, kindOf]
    rw [Nat.add_sub_cancel_left, ← hcons, Text.takeBytes_append]
  have hnext : next afterOperand ⟨o, text.literal ++ rest⟩ =
      (⟨.template (String.ofList text.literal), ⟨o, o + Text.byteLength text.literal⟩, false⟩,
        ⟨o + Text.byteLength text.literal, rest⟩) := by
    rw [next_eq, hcons, skipBlank_outside (fun h => absurd h (by decide)), if_neg (by decide)]
    simp only [fromHead, significant, if_pos, hkind]
  rw [tokensFrom_of_next hnext, if_neg (by simp)]
  rfl

/-- A template with delimiters of templates in an escape, a string, two comments and a template
inside of it. -/
def nestedTemplate : Template :=
  let string : StringLiteral := ⟨'\'', [.raw '\x7d', .raw '\x60'], .inr rfl, by decide⟩
  let nested : Template := .substitution (.atom [] (.word ⟨"g", by decide⟩) (.done [])) .done
  let group : TemplateCode := .atom [] (.string string) <|
    .atom [' '] (.comment (.block ['\x7d', '\x60'])) <| .template [' '] nested <| .done [' ']
  let code : TemplateCode := .atom [] (.word ⟨"f", by decide⟩) <| .group [' '] group <|
    .atom [' '] (.comment (.line ['\x60', '\x7d'] '\n')) <| .done []
  .char 'a' <| .escape '\x60' <| .char '$' <| .substitution code <| .char '\x7d' .done

/-- The template is one token up to its last backquote, whatever delimiters stand in it. -/
theorem Token.tokensFrom_template_nestedTemplate : nestedTemplate.IsWritten Text.isLineBreak ∧
    nestedTemplate.literal =
      ("\x60a\\\x60$$\x7bf \x7b'\x7d\x60' /*\x7d\x60*/ \x60$\x7bg\x7d\x60 \x7d " ++
        "//\x60\x7d\n\x7d\x7d\x60").toList ∧
    tokensFrom false ⟨0, nestedTemplate.literal ++ ['\x7d']⟩ =
      [⟨.template (String.ofList nestedTemplate.literal), ⟨0, 39⟩, false⟩,
        ⟨.rightBrace, ⟨39, 40⟩, false⟩, ⟨.endOfInput, ⟨40, 40⟩, false⟩] := by
  have hwritten : nestedTemplate.IsWritten Text.isLineBreak := by decide +kernel
  have hread := tokensFrom_template hwritten false 0 ['\x7d']
  have hlength : 0 + Text.byteLength nestedTemplate.literal = 39 := by decide +kernel
  rw [hlength] at hread
  refine ⟨hwritten, by decide +kernel, hread.trans ?_⟩
  congr 1
  decide +kernel

/-- A line separator does not end a line comment in a substitution, so that the template has no
end. -/
theorem Token.exists_template_unterminated : ∃ text : Template,
    text.IsWritten Text.isLineTerminator ∧ ofChars text.literal =
      [⟨.invalid .unterminatedSubstitution, ⟨0, 10⟩, false⟩, ⟨.endOfInput, ⟨10, 10⟩, false⟩] :=
  ⟨.substitution (.atom [] (.comment (.line [] '\u2028')) (.done [])) .done, by decide +kernel,
    by decide +kernel⟩

end ModuleGraph
