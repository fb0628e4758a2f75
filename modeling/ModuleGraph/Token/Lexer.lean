import ModuleGraph.Text.Blank
import ModuleGraph.Text.Identifier
import ModuleGraph.Token

/-!
# From text to tokens

`Token.ofChars` splits a source text into its tokens. Comments, strings, templates with everything
they nest, and regular expressions are read as a whole, so that no bracket inside them is taken for
one of the program's. Every reading function takes the byte offset it stands at and the characters
ahead, and returns the `Cursor` behind what it read; the lemmas named `…_le` say that no character
is gained, and `Token.next_lt` that every token but the last takes at least one.
-/

namespace ModuleGraph

/-- A place in a text: its byte offset and the characters ahead. -/
structure Cursor where
  offset : Nat
  rest : List Char

namespace Token

/-! ## Blanks and comments -/

/-- What the blank between two tokens is made of at some place. `block` remembers whether the
character before was a `*` of the comment. -/
inductive BlankPlace where
  | outside
  | line
  | block (afterStar : Bool)

/-- Skips blanks and comments and tells whether a line ended. A comment to the end of the line ends
at a line feed or carriage return, and only these count as line ends inside a comment. A comment
that is never closed reaches to the end of the text. -/
def skipBlank : BlankPlace → (newline : Bool) → Nat → List Char → Bool × Cursor
  | _, newline, o, [] => (newline, ⟨o, []⟩)
  | .outside, newline, o, '/' :: '/' :: cs => skipBlank .line newline (o + 2) cs
  | .outside, newline, o, '/' :: '*' :: cs => skipBlank (.block false) newline (o + 2) cs
  | .outside, newline, o, c :: cs =>
    if Text.isBlank c then
      skipBlank .outside (newline || Text.isLineTerminator c) (o + c.utf8Size) cs
    else (newline, ⟨o, c :: cs⟩)
  | .line, newline, o, c :: cs =>
    if c = '\n' ∨ c = '\r' then skipBlank .outside true (o + c.utf8Size) cs
    else skipBlank .line newline (o + c.utf8Size) cs
  | .block afterStar, newline, o, c :: cs =>
    if afterStar ∧ c = '/' then skipBlank .outside newline (o + c.utf8Size) cs
    else skipBlank (.block (c = '*')) (newline || c = '\n' || c = '\r') (o + c.utf8Size) cs

/-! ## Words and numbers -/

/-- The longest leading part whose characters all satisfy `p`. -/
def takeWhile (p : Char → Bool) : Nat → List Char → List Char × Cursor
  | o, [] => ([], ⟨o, []⟩)
  | o, c :: cs =>
    if p c then
      (takeWhile p (o + c.utf8Size) cs).map (c :: ·) id
    else ([], ⟨o, c :: cs⟩)

/-- The rest of a number whose last character so far is `last`: letters, digits, `_` and `.`, and a
sign right after an exponent mark unless the number is hexadecimal. -/
def numberTail (hexadecimal : Bool) (last : Char) : Nat → List Char → List Char × Cursor
  | o, [] => ([], ⟨o, []⟩)
  | o, c :: cs =>
    if c.isAlphanum || c == '_' || c == '.'
        || ((c == '+' || c == '-') && (last == 'e' || last == 'E') && !hexadecimal) then
      (numberTail hexadecimal c (o + c.utf8Size) cs).map (c :: ·) id
    else ([], ⟨o, c :: cs⟩)

/-- Whether a number that starts with `first` and goes on with `cs` is hexadecimal. -/
def isHexadecimal (first : Char) (cs : List Char) : Bool :=
  first == '0' && (cs.head? == some 'x' || cs.head? == some 'X')

/-- A number that starts with `first`. -/
def number (first : Char) (o : Nat) (cs : List Char) : Kind × Cursor :=
  (numberTail (isHexadecimal first cs) first o cs).map
    (fun text => .number (String.ofList (first :: text))) id

/-- The kind of a word: a reserved word or an identifier. -/
def wordKind (name : String) : Kind :=
  match Keyword.ofWord? name with
  | some k => .keyword k
  | none => .identifier name

/-- An identifier or reserved word that starts with `first`. -/
def word (first : Char) (o : Nat) (cs : List Char) : Kind × Cursor :=
  (takeWhile Text.isIdentifierContinue o cs).map
    (fun text => wordKind (String.ofList (first :: text))) id

/-- A private name, after its `#`. -/
def privateName (o : Nat) (cs : List Char) : Kind × Cursor :=
  (takeWhile Text.isIdentifierContinue o cs).map
    (fun text =>
      if text.isEmpty then .invalid (.unexpected '#') else .privateIdentifier (String.ofList text))
    id

/-! ## Strings -/

/-- The value of a hexadecimal digit. -/
def hexDigit? (c : Char) : Option Nat :=
  if '0' ≤ c ∧ c ≤ '9' then some (c.toNat - '0'.toNat)
  else if 'a' ≤ c ∧ c ≤ 'f' then some (c.toNat - 'a'.toNat + 10)
  else if 'A' ≤ c ∧ c ≤ 'F' then some (c.toNat - 'A'.toNat + 10)
  else none

/-- The character of a code, the replacement character where there is none. -/
def charOfCode (code : Nat) : Char :=
  if h : code.isValidChar then Char.ofNatAux code h else '\uFFFD'

/-- At most `digits` hexadecimal digits, as a number. -/
def hexCode : (digits : Nat) → (code : Nat) → Nat → List Char → Nat × Cursor
  | 0, code, o, cs => (code, ⟨o, cs⟩)
  | _ + 1, code, o, [] => (code, ⟨o, []⟩)
  | n + 1, code, o, c :: cs =>
    match hexDigit? c with
    | some d => hexCode n (code * 16 + d) (o + c.utf8Size) cs
    | none => (code, ⟨o, c :: cs⟩)

/-- The hexadecimal digits of a code in braces, after the opening one. The first character that is
no digit ends the code and belongs to the escape. -/
def bracedCode : (code : Nat) → Nat → List Char → Nat × Cursor
  | code, o, [] => (code, ⟨o, []⟩)
  | code, o, c :: cs =>
    match hexDigit? c with
    | some d => bracedCode (code * 16 + d) (o + c.utf8Size) cs
    | none => (code, ⟨o + c.utf8Size, cs⟩)

/-- The characters an escape stands for, after its backslash. A line end stands for none. -/
def escape : Nat → List Char → List Char × Cursor
  | o, [] => ([], ⟨o, []⟩)
  | o, 'x' :: cs =>
    (hexCode 2 0 (o + 1) cs).map (fun code => [charOfCode code]) id
  | o, 'u' :: '\x7b' :: cs =>
    (bracedCode 0 (o + 2) cs).map (fun code => [charOfCode code]) id
  | o, 'u' :: cs =>
    (hexCode 4 0 (o + 1) cs).map (fun code => [charOfCode code]) id
  | o, '\r' :: '\n' :: cs => ([], ⟨o + 2, cs⟩)
  | o, c :: cs =>
    let value : List Char :=
      match c with
      | '\n' | '\r' => []
      | 'n' => ['\n']
      | 'r' => ['\r']
      | 't' => ['\t']
      | 'b' => ['\x08']
      | 'f' => ['\x0c']
      | 'v' => ['\x0b']
      | '0' => ['\x00']
      | c => [c]
    (value, ⟨o + c.utf8Size, cs⟩)

theorem hexCode_le (n code o : Nat) (cs : List Char) :
    (hexCode n code o cs).2.rest.length ≤ cs.length := by
  induction n generalizing code o cs with
  | zero => simp [hexCode]
  | succ n ih =>
    cases cs with
    | nil => simp [hexCode]
    | cons c cs =>
      simp only [hexCode]
      split
      · exact Nat.le_succ_of_le (ih ..)
      · simp

theorem bracedCode_le (code o : Nat) (cs : List Char) :
    (bracedCode code o cs).2.rest.length ≤ cs.length := by
  induction cs generalizing code o with
  | nil => simp [bracedCode]
  | cons c cs ih =>
    simp only [bracedCode]
    split
    · exact Nat.le_succ_of_le (ih _ _)
    · simp

theorem escape_le (o : Nat) (cs : List Char) : (escape o cs).2.rest.length ≤ cs.length := by
  unfold escape
  split
  · simp
  · exact Nat.le_succ_of_le (hexCode_le ..)
  · exact Nat.le_succ_of_le (Nat.le_succ_of_le (bracedCode_le ..))
  · exact Nat.le_succ_of_le (hexCode_le ..)
  · simp only [List.length_cons]; omega
  · simp

/-- The rest of a string literal. `value` holds what is decoded so far, last character first. -/
def stringTail (quote : Char) (value : List Char) (o : Nat) :
    List Char → Except LexicalFault String × Cursor
  | [] => (.error .unterminatedString, ⟨o, []⟩)
  | c :: cs =>
    if c = '\n' then (.error .unterminatedString, ⟨o + 1, cs⟩)
    else if c = quote then (.ok (String.ofList value.reverse), ⟨o + c.utf8Size, cs⟩)
    else if c = '\\' then
      let r := escape (o + 1) cs
      stringTail quote (r.1.reverse ++ value) r.2.offset r.2.rest
    else stringTail quote (c :: value) (o + c.utf8Size) cs
termination_by cs => cs.length
decreasing_by
  · exact Nat.lt_succ_of_le (escape_le ..)
  · simp

/-- The token of something read or refused. -/
def kindOf {α : Type} (f : α → Kind) : Except LexicalFault α × Cursor → Kind × Cursor
  | (.ok a, k) => (f a, k)
  | (.error e, k) => (.invalid e, k)

/-! ## Regular expressions -/

/-- The rest of a regular expression's pattern up to its closing slash, which is skipped. A slash
inside a character class does not close. -/
def patternTail : (inClass : Bool) → Nat → List Char → Except LexicalFault (List Char) × Cursor
  | _, o, [] => (.error .unterminatedRegExp, ⟨o, []⟩)
  | _, o, ['\\'] => (.error .unterminatedRegExp, ⟨o + 1, []⟩)
  | inClass, o, '\\' :: c :: cs =>
    (patternTail inClass (o + 1 + c.utf8Size) cs).map (Except.map ('\\' :: c :: ·)) id
  | inClass, o, c :: cs =>
    if c = '\n' ∨ c = '\r' then (.error .unterminatedRegExp, ⟨o + 1, cs⟩)
    else if c = '/' ∧ !inClass then (.ok [], ⟨o + 1, cs⟩)
    else
      let inClass := if c = '[' then true else if c = ']' then false else inClass
      (patternTail inClass (o + c.utf8Size) cs).map (Except.map (c :: ·)) id

/-- A regular expression, after its opening slash. -/
def regExp (o : Nat) (cs : List Char) : Kind × Cursor :=
  match patternTail false o cs with
  | (.ok pattern, k) =>
    (takeWhile Text.isIdentifierContinue k.offset k.rest).map
      (fun flags => .regExp (String.ofList pattern) (String.ofList flags)) id
  | (.error e, k) => (.invalid e, k)

/-! ## Operators -/

/-- All operators, each before its own leading parts. -/
def operators : List String :=
  [">>>=", "...", "===", "!==", "**=", "<<=", ">>=", ">>>", "&&=", "||=", "??=", "=>", "==",
   "!=", "<=", ">=", "&&", "||", "??", "?.", "++", "--", "+=", "-=", "*=", "/=", "%=", "&=",
   "|=", "^=", "**", "<<", ">>", "+", "-", "/", "%", "<", ">", "&", "|", "^", "!", "~", "?",
   ":", "@", "=", "*"]

/-- The longest operator at a place. -/
def operator (o : Nat) (c : Char) (cs : List Char) : Kind × Cursor :=
  match operators.find? fun op => op.toList.isPrefixOf (c :: cs) with
  | none => (.invalid (.unexpected c), ⟨o + c.utf8Size, cs⟩)
  | some op =>
    let k : Cursor := ⟨o + op.length, cs.drop (op.length - 1)⟩
    if op = "*" then (.star, k) else if op = "=" then (.equal, k) else (.operator op, k)

/-- The token that starts with `c`, unless that is a template. `afterOperand` tells whether an
expression can end just before it. -/
def plain (afterOperand : Bool) (o : Nat) (c : Char) (cs : List Char) : Kind × Cursor :=
  let behind := o + c.utf8Size
  match c with
  | '\x7b' => (.leftBrace, ⟨behind, cs⟩)
  | '\x7d' => (.rightBrace, ⟨behind, cs⟩)
  | '(' => (.leftParen, ⟨behind, cs⟩)
  | ')' => (.rightParen, ⟨behind, cs⟩)
  | '[' => (.leftBracket, ⟨behind, cs⟩)
  | ']' => (.rightBracket, ⟨behind, cs⟩)
  | ';' => (.semicolon, ⟨behind, cs⟩)
  | ',' => (.comma, ⟨behind, cs⟩)
  | '"' | '\'' => kindOf .string (stringTail c [] behind cs)
  | '#' => privateName behind cs
  | '\\' => (.invalid .escapedIdentifier, ⟨behind, cs⟩)
  | _ =>
    if c = '.' ∧ cs.head?.any Char.isDigit then number c behind cs
    else if c = '.' ∧ cs.take 2 ≠ ['.', '.'] then (.dot, ⟨behind, cs⟩)
    else if c = '/' ∧ !afterOperand then regExp behind cs
    else if c.isDigit then number c behind cs
    else if Text.isIdentifierStart c then word c behind cs
    else operator o c cs

/-! ## Templates -/

/-- Where the text of a template stops. -/
inductive TemplateStop where
  | closed
  | substitution
  | unterminated
deriving DecidableEq

/-- Skips template text up to the closing backquote, the opening of a substitution or the end. -/
def templateText : Nat → List Char → TemplateStop × Cursor
  | o, [] => (.unterminated, ⟨o, []⟩)
  | o, ['\\'] => (.unterminated, ⟨o + 1, []⟩)
  | o, '\\' :: c :: cs => templateText (o + 1 + c.utf8Size) cs
  | o, '$' :: '\x7b' :: cs => (.substitution, ⟨o + 2, cs⟩)
  | o, c :: cs =>
    if c = '\x60' then (.closed, ⟨o + 1, cs⟩) else templateText (o + c.utf8Size) cs

/-- A place inside a template: in its text, or in a substitution below `depth` open braces. -/
inductive TemplatePlace where
  | text
  | code (depth : Nat) (afterOperand : Bool)

theorem skipBlank_le (p : BlankPlace) (newline : Bool) (o : Nat) (cs : List Char) :
    (skipBlank p newline o cs).2.rest.length ≤ cs.length := by
  fun_induction skipBlank p newline o cs <;> simp_all <;> omega

theorem takeWhile_le (p : Char → Bool) (o : Nat) (cs : List Char) :
    (takeWhile p o cs).2.rest.length ≤ cs.length := by
  fun_induction takeWhile p o cs <;> simp_all; omega

theorem numberTail_le (h : Bool) (last : Char) (o : Nat) (cs : List Char) :
    (numberTail h last o cs).2.rest.length ≤ cs.length := by
  fun_induction numberTail h last o cs <;> simp_all; omega

theorem stringTail_le (quote : Char) (value : List Char) (o : Nat) (cs : List Char) :
    (stringTail quote value o cs).2.rest.length ≤ cs.length := by
  fun_induction stringTail quote value o cs with
  | case1 => simp
  | case2 => simp
  | case3 => simp
  | case4 value o cs _ _ r ih => exact Nat.le_trans ih (Nat.le_succ_of_le (escape_le ..))
  | case5 value o c cs _ _ _ ih => exact Nat.le_succ_of_le ih

theorem patternTail_le (inClass : Bool) (o : Nat) (cs : List Char) :
    (patternTail inClass o cs).2.rest.length ≤ cs.length := by
  fun_induction patternTail inClass o cs <;> simp_all <;> omega

/-- A literal is read as far as the scanner has come. -/
theorem kindOf_rest {α : Type} (f : α → Kind) (r : Except LexicalFault α × Cursor) :
    (kindOf f r).2 = r.2 := by
  rcases r with ⟨_ | _, _⟩ <;> rfl

theorem number_le (c : Char) (o : Nat) (cs : List Char) :
    (number c o cs).2.rest.length ≤ cs.length :=
  numberTail_le ..

theorem word_le (c : Char) (o : Nat) (cs : List Char) :
    (word c o cs).2.rest.length ≤ cs.length :=
  takeWhile_le ..

theorem privateName_le (o : Nat) (cs : List Char) :
    (privateName o cs).2.rest.length ≤ cs.length :=
  takeWhile_le ..

theorem regExp_le (o : Nat) (cs : List Char) : (regExp o cs).2.rest.length ≤ cs.length := by
  have h := patternTail_le false o cs
  unfold regExp
  split
  · rename_i k heq
    rw [heq] at h
    exact Nat.le_trans (takeWhile_le ..) h
  · rename_i heq
    rw [heq] at h
    exact h

theorem operator_le (o : Nat) (c : Char) (cs : List Char) :
    (operator o c cs).2.rest.length ≤ cs.length := by
  unfold operator
  split
  · simp
  · dsimp only
    split
    · simp
    · split <;> simp

theorem plain_le (afterOperand : Bool) (o : Nat) (c : Char) (cs : List Char) :
    (plain afterOperand o c cs).2.rest.length ≤ cs.length := by
  unfold plain
  dsimp only
  split <;> try exact Nat.le_refl _
  · rw [kindOf_rest]; exact stringTail_le ..
  · rw [kindOf_rest]; exact stringTail_le ..
  · exact privateName_le ..
  · split
    · exact number_le ..
    · split
      · exact Nat.le_refl _
      · split
        · exact regExp_le ..
        · split
          · exact number_le ..
          · split
            · exact word_le ..
            · exact operator_le ..

theorem templateText_le (o : Nat) (cs : List Char) :
    (templateText o cs).2.rest.length ≤ cs.length := by
  fun_induction templateText o cs <;> simp_all <;> omega

/-- Where the text of a template stops, a character has been taken. -/
theorem templateText_lt {o : Nat} {cs : List Char} {stop : TemplateStop} {k : Cursor}
    (h : templateText o cs = (stop, k)) (hs : stop ≠ .unterminated) :
    k.rest.length < cs.length := by
  fun_induction templateText o cs with
  | case1 => simp_all
  | case2 => simp_all
  | case3 o c cs ih => exact Nat.lt_succ_of_lt (Nat.lt_succ_of_lt (ih h))
  | case4 o cs =>
    cases h
    exact Nat.lt_succ_of_lt (Nat.lt_succ_self _)
  | case5 => cases h; simp
  | case6 o c cs _ _ _ _ ih => exact Nat.lt_succ_of_lt (ih h)

/-- Behind a blank and the character that ends it less of the text is ahead. -/
theorem skipBlank_lt {p : BlankPlace} {newline : Bool} {o o' : Nat} {c : Char}
    {cs cs' : List Char} (h : (skipBlank p newline o cs).2 = ⟨o', c :: cs'⟩) :
    cs'.length < cs.length := by
  have := skipBlank_le p newline o cs
  rw [h] at this
  exact this

/-- No character is gained by a token that is no template. -/
theorem rest_le_of_plain {afterOperand : Bool} {o : Nat} {c : Char} {cs : List Char}
    {r : Kind × Cursor} (h : plain afterOperand o c cs = r) : r.2.rest.length ≤ cs.length :=
  h ▸ plain_le ..

/-- Reads on inside a template to the end of its outermost text. `outer` holds the brace depths of
the substitutions around the innermost template, innermost first. -/
def templateTail (place : TemplatePlace) (outer : List Nat) (k : Cursor) :
    Except LexicalFault Unit × Cursor :=
  match place with
  | .text =>
    match _h : templateText k.offset k.rest with
    | (.unterminated, k') => (.error .unterminatedTemplate, k')
    | (.substitution, k') => templateTail (.code 0 false) outer k'
    | (.closed, k') =>
      match outer with
      | [] => (.ok (), k')
      | depth :: outer => templateTail (.code depth true) outer k'
  | .code depth afterOperand =>
    match _h : (skipBlank .outside false k.offset k.rest).2 with
    | ⟨o, []⟩ => (.error .unterminatedSubstitution, ⟨o, []⟩)
    | ⟨o, c :: cs⟩ =>
      if c = '\x60' then templateTail .text (depth :: outer) ⟨o + 1, cs⟩
      else
        match _hp : plain afterOperand o c cs with
        | (.invalid e, k'') => (.error e, k'')
        | (.leftBrace, k'') => templateTail (.code (depth + 1) false) outer k''
        | (.rightBrace, k'') =>
          match depth with
          | 0 => templateTail .text outer k''
          | depth + 1 => templateTail (.code depth true) outer k''
        | (kind, k'') => templateTail (.code depth kind.endsExpression) outer k''
termination_by k.rest.length
decreasing_by
  · exact templateText_lt _h (by decide)
  · exact templateText_lt _h (by decide)
  · exact skipBlank_lt _h
  all_goals exact Nat.lt_of_le_of_lt (rest_le_of_plain _hp) (skipBlank_lt _h)

theorem templateTail_le (place : TemplatePlace) (outer : List Nat) (k : Cursor) :
    (templateTail place outer k).2.rest.length ≤ k.rest.length := by
  fun_induction templateTail place outer k with
  | case1 outer k k' h =>
    have := templateText_le k.offset k.rest
    rwa [h] at this
  | case2 outer k k' h ih => exact Nat.le_trans ih (Nat.le_of_lt (templateText_lt h (by decide)))
  | case3 k k' h => exact Nat.le_of_lt (templateText_lt h (by decide))
  | case4 k k' h depth outer ih =>
    exact Nat.le_trans ih (Nat.le_of_lt (templateText_lt h (by decide)))
  | case5 outer k depth afterOperand o h =>
    exact Nat.zero_le _
  | case6 outer k depth afterOperand o cs h ih =>
    exact Nat.le_trans ih (Nat.le_of_lt (skipBlank_lt h))
  | case7 outer k depth afterOperand o c cs h hc e k' hp =>
    exact Nat.le_of_lt (Nat.lt_of_le_of_lt (rest_le_of_plain hp) (skipBlank_lt h))
  | case8 outer k depth afterOperand o c cs h hc k' hp ih =>
    exact Nat.le_trans ih (Nat.le_of_lt (Nat.lt_of_le_of_lt (rest_le_of_plain hp) (skipBlank_lt h)))
  | case9 outer k afterOperand o c cs h hc k' hp ih =>
    exact Nat.le_trans ih (Nat.le_of_lt (Nat.lt_of_le_of_lt (rest_le_of_plain hp) (skipBlank_lt h)))
  | case10 outer k afterOperand o c cs h hc k' hp depth ih =>
    exact Nat.le_trans ih (Nat.le_of_lt (Nat.lt_of_le_of_lt (rest_le_of_plain hp) (skipBlank_lt h)))
  | case11 outer k depth afterOperand o c cs h hc kind k' _ _ _ hp ih =>
    exact Nat.le_trans ih (Nat.le_of_lt (Nat.lt_of_le_of_lt (rest_le_of_plain hp) (skipBlank_lt h)))

/-! ## All tokens -/

/-- A template, after its opening backquote. `chars` is the text from that backquote on. -/
def template (chars : List Char) (o : Nat) (cs : List Char) : Kind × Cursor :=
  let r := templateTail .text [] ⟨o + 1, cs⟩
  kindOf (fun _ => .template (String.ofList (Text.takeBytes (r.2.offset - o) chars))) r

/-- The token that starts with `c`. -/
def significant (afterOperand : Bool) (o : Nat) (c : Char) (cs : List Char) : Kind × Cursor :=
  if c = '\x60' then template (c :: cs) o cs else plain afterOperand o c cs

/-- The next token, and the place behind it. -/
def next (afterOperand : Bool) (k : Cursor) : Token × Cursor :=
  match skipBlank .outside false k.offset k.rest with
  | (newline, ⟨o, []⟩) => (⟨.endOfInput, ⟨o, o⟩, newline⟩, ⟨o, []⟩)
  | (newline, ⟨o, c :: cs⟩) =>
    match significant afterOperand o c cs with
    | (kind, behind) => (⟨kind, ⟨o, behind.offset⟩, newline⟩, behind)

theorem significant_le (afterOperand : Bool) (o : Nat) (c : Char) (cs : List Char) :
    (significant afterOperand o c cs).2.rest.length ≤ cs.length := by
  unfold significant template
  split
  · dsimp only
    rw [kindOf_rest]
    exact templateTail_le ..
  · exact plain_le ..

/-- Every token but the last one takes a character. -/
theorem next_lt {afterOperand : Bool} {k : Cursor}
    (h : (next afterOperand k).1.kind ≠ .endOfInput) :
    (next afterOperand k).2.rest.length < k.rest.length := by
  unfold next at h ⊢
  split at h
  · simp at h
  · rename_i newline o c cs heq
    have h₁ : cs.length < k.rest.length := skipBlank_lt (congrArg Prod.snd heq)
    have h₂ := significant_le afterOperand o c cs
    exact Nat.lt_of_le_of_lt h₂ h₁

/-- The tokens from a place to the end of the text. -/
def tokensFrom (afterOperand : Bool) (k : Cursor) : List Token :=
  match _h : next afterOperand k with
  | (token, k') =>
    if _he : token.kind = .endOfInput then [token]
    else token :: tokensFrom token.kind.endsExpression k'
termination_by k.rest.length
decreasing_by
  have := @next_lt afterOperand k (by rw [_h]; exact _he)
  rw [_h] at this
  exact this

/-- The tokens of a text. The last one, and no other, is the end of the input. -/
def ofChars (chars : List Char) : List Token :=
  tokensFrom false ⟨0, chars⟩

end Token

end ModuleGraph
