import ModuleGraph.Proofs.Scanning

/-!
# The text of a source and the text of its tokens

Scanning loses nothing. A text is cut into its tokens and the blanks between them: every token
covers the characters it stands for, and a blank is made of white space, line ends, byte order marks
and comments only (`Token.partition_ofChars`).
-/

namespace ModuleGraph

namespace Text

/-- What stands between two tokens: blank characters and comments. A comment that nothing ends
stands only at the end of the input. -/
inductive Blank (atEnd : Prop) : List Char → Prop where
  | nil : Blank atEnd []
  | char {c : Char} {cs : List Char} (hc : isBlank c = true) (h : Blank atEnd cs) :
      Blank atEnd (c :: cs)
  | line {body cs : List Char} {c : Char} (hbody : ∀ d ∈ body, d ≠ '\n' ∧ d ≠ '\r')
      (hc : c = '\n' ∨ c = '\r') (h : Blank atEnd cs) :
      Blank atEnd ('/' :: '/' :: body ++ c :: cs)
  | lastLine {body : List Char} (hbody : ∀ d ∈ body, d ≠ '\n' ∧ d ≠ '\r') (hend : atEnd) :
      Blank atEnd ('/' :: '/' :: body)
  | block {body cs : List Char} (hbody : ¬ ['*', '/'] <:+: body) (h : Blank atEnd cs) :
      Blank atEnd ('/' :: '*' :: body ++ '*' :: '/' :: cs)
  | openBlock {body : List Char} (hbody : ¬ ['*', '/'] <:+: body) (hend : atEnd) :
      Blank atEnd ('/' :: '*' :: body)

/-- A byte offset at which a character of the text starts or the text ends. -/
def IsBoundary (text : List Char) (o : Nat) : Prop :=
  ∃ before, before <+: text ∧ byteLength before = o

end Text

namespace Token

/-- How a token is written, for the kinds that tell. -/
def Kind.spelling? : Kind → Option (List Char)
  | .number text => some text.toList
  | .template text => some text.toList
  | .regExp pattern flags => some ('/' :: pattern.toList ++ '/' :: flags.toList)
  | .identifier name => some name.toList
  | .privateIdentifier name => some ('#' :: name.toList)
  | .keyword word => some word.word.toList
  | .leftBrace => some ['\x7b']
  | .rightBrace => some ['\x7d']
  | .leftParen => some ['(']
  | .rightParen => some [')']
  | .leftBracket => some ['[']
  | .rightBracket => some [']']
  | .dot => some ['.']
  | .semicolon => some [';']
  | .comma => some [',']
  | .star => some ['*']
  | .equal => some ['=']
  | .operator text => some text.toList
  | .endOfInput => some []
  | .string _ | .invalid _ => none

/-- The operator that a token is. -/
def Kind.operator? : Kind → Option String
  | .star => some "*"
  | .equal => some "="
  | .operator text => some text
  | _ => none

/-- Whether a token is an identifier. -/
def Kind.isIdentifier : Kind → Bool
  | .identifier _ => true
  | _ => false

/-- The operator `op` is the longest of those that the text `cs` starts with. -/
structure IsLongestOperator (op : String) (cs : List Char) : Prop where
  listed : op ∈ operators
  isPrefix : op.toList <+: cs
  longest : ∀ op' ∈ operators, op'.toList <+: cs → op'.length ≤ op.length

/-- A token stands between characters of the text and covers those it is written with. -/
structure Covers (text : List Char) (t : Token) : Prop where
  start : Text.IsBoundary text t.span.start
  stop : Text.IsBoundary text t.span.stop
  spelled : ∀ s, t.kind.spelling? = some s → Text.slice text t.span = s
  longest : ∀ op, t.kind.operator? = some op →
    IsLongestOperator op (Text.dropBytes t.span.start text)
  named : ∀ name, t.kind = .identifier name → Text.isIdentifierName name.toList = true

/-- A text from byte `o` on, cut into tokens: nothing but blanks stands in front of the first token
and between two of them, and the last one stands behind all characters. -/
structure Partition (text : List Char) (o : Nat) (ts : List Token) : Prop where
  ends : ∃ before newlineBefore,
    ts = before ++ [⟨.endOfInput, ⟨Text.byteLength text, Text.byteLength text⟩, newlineBefore⟩] ∧
      ∀ t ∈ before, t.kind ≠ .endOfInput
  ordered : Ordered ts
  covers : ∀ t ∈ ts, Covers text t
  leading : ∀ t after, ts = t :: after →
    Text.Blank (t.kind = .endOfInput) (Text.slice text ⟨o, t.span.start⟩)
  between : ∀ before t u after, ts = before ++ t :: u :: after →
    Text.Blank (u.kind = .endOfInput) (Text.slice text ⟨t.span.stop, u.span.start⟩)

/-! ## Blanks -/

/-- A block comment, a blank behind it, without the marks that open it. -/
def IsBlockTail (atEnd : Prop) (cs : List Char) : Prop :=
  ∃ body, ¬ ['*', '/'] <:+: body ∧
    ((atEnd ∧ cs = body) ∨ ∃ tail, Text.Blank atEnd tail ∧ cs = body ++ '*' :: '/' :: tail)

/-- What is left of a blank at a place inside it. -/
def BlankPlace.Finishes (atEnd : Prop) : BlankPlace → List Char → Prop
  | .outside, cs => Text.Blank atEnd cs
  | .line, cs => ∃ body, (∀ d ∈ body, d ≠ '\n' ∧ d ≠ '\r') ∧
      ((atEnd ∧ cs = body) ∨
        ∃ c tail, (c = '\n' ∨ c = '\r') ∧ Text.Blank atEnd tail ∧ cs = body ++ c :: tail)
  | .block afterStar, cs => IsBlockTail atEnd (if afterStar then '*' :: cs else cs)

variable {atEnd : Prop} {c : Char} {cs : List Char}

/-- A line comment goes on over a character that ends no line. -/
theorem finishes_line_cons (hc : ¬ (c = '\n' ∨ c = '\r'))
    (h : BlankPlace.line.Finishes atEnd cs) : BlankPlace.line.Finishes atEnd (c :: cs) := by
  obtain ⟨body, hbody, h⟩ := h
  refine ⟨c :: body, List.forall_mem_cons.2 ⟨not_or.1 hc, hbody⟩, ?_⟩
  obtain ⟨hend, rfl⟩ | ⟨d, tail, hd, htail, rfl⟩ := h
  · exact .inl ⟨hend, rfl⟩
  · exact .inr ⟨d, tail, hd, htail, rfl⟩

/-- A character in front of a text makes no closing mark unless it is a star before a slash. -/
theorem not_closes_cons {body : List Char} (hbody : ¬ ['*', '/'] <:+: body)
    (hc : c = '*' → ∀ tail, body ≠ '/' :: tail) : ¬ ['*', '/'] <:+: c :: body := by
  rw [List.infix_cons_iff]
  rintro (⟨tail, htail⟩ | h)
  · obtain ⟨rfl, rfl⟩ := List.cons.inj htail
    exact hc rfl _ rfl
  · exact hbody h

/-- A block comment goes on over a character that does not start its closing mark. -/
theorem isBlockTail_cons (hc : c = '*' → ∀ tail, cs ≠ '/' :: tail) (h : IsBlockTail atEnd cs) :
    IsBlockTail atEnd (c :: cs) := by
  obtain ⟨body, hbody, h⟩ := h
  refine ⟨c :: body, not_closes_cons hbody ?_, ?_⟩
  · rintro rfl tail rfl
    obtain ⟨-, rfl⟩ | ⟨tail', -, rfl⟩ := h <;> exact hc rfl _ rfl
  · obtain ⟨hend, rfl⟩ | ⟨tail, htail, rfl⟩ := h
    · exact .inl ⟨hend, rfl⟩
    · exact .inr ⟨tail, htail, rfl⟩

/-- Inside a block comment a character is passed unless it is the slash behind a star. -/
theorem finishes_block_cons {afterStar : Bool} (hc : ¬ (afterStar = true ∧ c = '/'))
    (h : (BlankPlace.block (c = '*')).Finishes atEnd cs) :
    (BlankPlace.block afterStar).Finishes atEnd (c :: cs) := by
  by_cases hstar : c = '*'
  · subst hstar
    cases afterStar with
    | false => exact h
    | true => exact isBlockTail_cons (by simp) h
  · rw [decide_eq_false hstar] at h
    have hcons : IsBlockTail atEnd (c :: cs) := isBlockTail_cons (absurd · hstar) h
    cases afterStar with
    | false => exact hcons
    | true =>
        have hslash : c ≠ '/' := fun hslash => hc ⟨rfl, hslash⟩
        exact isBlockTail_cons (by simp [hslash]) hcons

/-- What the scanner skips in front of a token is a blank. -/
theorem skipBlank_finishes {p : BlankPlace} {newline newline' : Bool} {o : Nat} {cs : List Char}
    {k : Cursor} (h : skipBlank p newline o cs = (newline', k)) :
    ∃ blank, cs = blank ++ k.rest ∧ p.Finishes (k.rest = []) blank := by
  fun_induction skipBlank p newline o cs with
  | case1 p newline o =>
      cases h
      refine ⟨[], rfl, ?_⟩
      cases p with
      | outside => exact .nil
      | line => exact ⟨[], by simp, .inl ⟨rfl, rfl⟩⟩
      | block afterStar => exact ⟨_, by cases afterStar <;> decide, .inl ⟨rfl, rfl⟩⟩
  | case2 newline o cs ih =>
      obtain ⟨blank, rfl, body, hbody, ⟨hend, rfl⟩ | ⟨c, tail, hc, htail, rfl⟩⟩ := ih h
      · exact ⟨_, rfl, .lastLine hbody hend⟩
      · exact ⟨_, rfl, .line hbody hc htail⟩
  | case3 newline o cs ih =>
      obtain ⟨blank, rfl, body, hbody, ⟨hend, rfl⟩ | ⟨tail, htail, hblank⟩⟩ := ih h
      · exact ⟨_, rfl, .openBlock hbody hend⟩
      · obtain rfl : blank = body ++ '*' :: '/' :: tail := hblank
        exact ⟨_, rfl, .block hbody htail⟩
  | case4 newline o c cs hline hblock hblank ih =>
      obtain ⟨blank, rfl, hrest⟩ := ih h
      exact ⟨c :: blank, rfl, .char hblank hrest⟩
  | case5 newline o c cs hline hblock hblank =>
      cases h
      exact ⟨[], rfl, .nil⟩
  -- a line comment ends in front of the line break, which belongs to the blank behind it
  | case6 newline o c cs hc ih =>
      obtain ⟨blank, rfl, hrest⟩ := ih h
      exact ⟨c :: blank, rfl, [], by simp, .inr ⟨c, blank, hc, hrest, rfl⟩⟩
  | case7 newline o c cs hc ih =>
      obtain ⟨blank, rfl, hrest⟩ := ih h
      exact ⟨c :: blank, rfl, finishes_line_cons hc hrest⟩
  | case8 afterStar newline o c cs hc ih =>
      obtain ⟨blank, rfl, hrest⟩ := ih h
      obtain ⟨rfl, rfl⟩ := hc
      exact ⟨'/' :: blank, rfl, [], by simp, .inr ⟨blank, hrest, rfl⟩⟩
  | case9 afterStar newline o c cs hc ih =>
      obtain ⟨blank, rfl, hrest⟩ := ih h
      exact ⟨c :: blank, rfl, finishes_block_cons hc hrest⟩

/-! ## What a token is read from -/

/-- The token `r.1`, in front of `r.2`, is written as the text `cs` starts. -/
structure Renders (cs : List Char) (r : Kind × Cursor) : Prop where
  spelled : ∀ s, r.1.spelling? = some s → cs = s ++ r.2.rest
  longest : ∀ op, r.1.operator? = some op → IsLongestOperator op cs
  named : ∀ name, r.1 = .identifier name → Text.isIdentifierName name.toList = true

/-- A token that is neither an operator nor an identifier renders the text that it spells. -/
theorem renders_of_spelling {s : List Char} {r : Kind × Cursor} (hs : r.1.spelling? = some s)
    (hop : r.1.operator? = none) (hname : r.1.isIdentifier = false)
    (hcs : cs = s ++ r.2.rest) : Renders cs r where
  named name hname' := by
    rw [hname'] at hname
    cases hname
  spelled s' hs' := by
    rw [hs] at hs'
    cases hs'
    exact hcs
  longest op hop' := by
    rw [hop] at hop'
    contradiction

/-- An invalid token spells nothing, and so renders any text. -/
theorem renders_invalid {fault : LexicalFault} {k : Cursor} : Renders cs (.invalid fault, k) :=
  ⟨nofun, nofun, nofun⟩

/-- Taking characters and leaving the rest loses none of them. -/
theorem takeWhile_text (p : Char → Bool) (o : Nat) (cs : List Char) :
    cs = (takeWhile p o cs).1 ++ (takeWhile p o cs).2.rest := by
  fun_induction takeWhile p o cs with
  | case1 o => rfl
  | case2 o c cs hc ih => exact congrArg (c :: ·) ih
  | case3 o c cs hc => rfl

/-- All characters that are taken have the property that is asked for. -/
theorem takeWhile_all (p : Char → Bool) (o : Nat) (cs : List Char) :
    (takeWhile p o cs).1.all p = true := by
  fun_induction takeWhile p o cs with
  | case1 o => rfl
  | case2 o c cs hc ih =>
      rw [Prod.map_fst, List.all_cons, hc, ih]
      rfl
  | case3 o c cs hc => rfl

/-- The rest of a number and what is left behind it are the text it is read from. -/
theorem numberTail_text (hexadecimal : Bool) (last : Char) (o : Nat) (cs : List Char) :
    cs = (numberTail hexadecimal last o cs).1 ++ (numberTail hexadecimal last o cs).2.rest := by
  fun_induction numberTail hexadecimal last o cs with
  | case1 last o => rfl
  | case2 last o c cs hc ih => exact congrArg (c :: ·) ih
  | case3 last o c cs hc => rfl

/-- A number is spelled as it stands in the text. -/
theorem renders_number (c : Char) (o : Nat) (cs : List Char) : Renders (c :: cs) (number c o cs) :=
  renders_of_spelling rfl rfl rfl (by
    rw [String.toList_ofList]
    exact congrArg (c :: ·) (numberTail_text ..))

/-- A word is spelled as it is, whether it is a keyword or an identifier. -/
theorem spelling?_wordKind (name : String) : (wordKind name).spelling? = some name.toList := by
  unfold wordKind
  split
  · next k hk => exact congrArg (some ·.toList) (Keyword.ofWord?_eq_some_iff.1 hk)
  · rfl

/-- A word is no operator. -/
theorem operator?_wordKind (name : String) : (wordKind name).operator? = none := by
  unfold wordKind
  split <;> rfl

/-- An identifier that is read from a word has the word as its name. -/
theorem name_of_wordKind {name name' : String} (h : wordKind name = .identifier name') :
    name = name' := by
  unfold wordKind at h
  split at h
  · cases h
  · exact Kind.identifier.inj h

/-- A word, from its first character on, is spelled as it stands in the text. -/
theorem renders_word {c : Char} (hc : Text.isIdentifierStart c = true) (o : Nat) (cs : List Char) :
    Renders (c :: cs) (word c o cs) where
  spelled s hs := by
    rw [word, Prod.map_fst, spelling?_wordKind, String.toList_ofList] at hs
    cases hs
    exact congrArg (c :: ·) (takeWhile_text ..)
  longest op hop := by
    rw [word, Prod.map_fst, operator?_wordKind] at hop
    cases hop
  named name hname := by
    obtain rfl := name_of_wordKind hname
    rw [String.toList_ofList, Text.isIdentifierName, hc, takeWhile_all]
    rfl

/-- A private name is spelled with its mark as it stands in the text. -/
theorem renders_privateName (o : Nat) (cs : List Char) :
    Renders ('#' :: cs) (privateName o cs) := by
  have htext := takeWhile_text Text.isIdentifierContinue o cs
  unfold privateName
  generalize takeWhile Text.isIdentifierContinue o cs = r at htext
  obtain ⟨name, k⟩ := r
  dsimp only [Prod.map_apply, id_eq] at htext ⊢
  split
  · exact renders_invalid
  · refine renders_of_spelling rfl rfl rfl ?_
    rw [String.toList_ofList, htext]
    rfl

/-- What is read is there before the reader maps it. -/
theorem eq_ok_of_map_eq_ok {ε α β : Type} {f : α → β} {b : β} {r : Except ε α × Cursor}
    {k : Cursor} (h : r.map (Except.map f) id = (.ok b, k)) : ∃ a, r = (.ok a, k) ∧ b = f a := by
  obtain ⟨_ | a, k'⟩ := r <;> cases h
  exact ⟨a, rfl, rfl⟩

/-- The pattern of a regular expression ends in front of the slash that closes it. -/
theorem patternTail_text {inClass : Bool} {o : Nat} {cs pattern : List Char} {k : Cursor}
    (h : patternTail inClass o cs = (.ok pattern, k)) : cs = pattern ++ '/' :: k.rest := by
  fun_induction patternTail inClass o cs generalizing pattern k with
  | case1 | case2 | case4 => cases h
  | case3 inClass o c cs ih =>
      obtain ⟨pattern, hpattern, rfl⟩ := eq_ok_of_map_eq_ok h
      exact congrArg ('\\' :: c :: ·) (ih hpattern)
  | case5 inClass o c cs hend hslash hline hclose =>
      cases h
      rw [hclose.1]
      rfl
  | case6 inClass o c cs hend hslash hline hclose inClass' =>
      rename_i ih
      obtain ⟨pattern, hpattern, rfl⟩ := eq_ok_of_map_eq_ok h
      exact congrArg (c :: ·) (ih hpattern)

/-- A regular expression is spelled as it stands in the text, with its flags. -/
theorem renders_regExp (o : Nat) (cs : List Char) : Renders ('/' :: cs) (regExp o cs) := by
  unfold regExp
  split
  · next pattern k hpattern =>
      have hflags := takeWhile_text Text.isIdentifierContinue k.offset k.rest
      refine renders_of_spelling rfl rfl rfl ?_
      rw [String.toList_ofList, String.toList_ofList, patternTail_text hpattern]
      simpa using hflags
  · exact renders_invalid

/-- The operators are listed from the longest to the shortest. -/
theorem pairwise_operators : operators.Pairwise fun a b => b.length ≤ a.length := by
  decide

/-- The first operator of the list that a text starts with is the longest one. -/
theorem isLongestOperator_of_find? {op : String}
    (h : operators.find? (fun op => op.toList.isPrefixOf cs) = some op) :
    IsLongestOperator op cs where
  listed := List.mem_of_find?_eq_some h
  isPrefix := by
    have := List.find?_some h
    exact List.isPrefixOf_iff_prefix.1 this
  longest op' hop' hprefix := by
    obtain ⟨-, before, after, hall, hnone⟩ := List.find?_eq_some_iff_append.1 h
    have hsorted := pairwise_operators
    rw [hall] at hop' hsorted
    -- an operator listed earlier would have been found
    obtain hbefore | rfl | hafter := by simpa using hop'
    · have := hnone op' hbefore
      simp [List.isPrefixOf_iff_prefix.2 hprefix] at this
    · exact Nat.le_refl _
    · exact (List.pairwise_cons.1 (List.pairwise_append.1 hsorted).2.1).1 op' hafter

/-- An operator token is the longest operator that the text starts with. -/
theorem renders_operator (o : Nat) (c : Char) (cs : List Char) :
    Renders (c :: cs) (operator o c cs) := by
  unfold operator
  split
  · exact renders_invalid
  · next op hop =>
      have hlongest := isLongestOperator_of_find? hop
      obtain ⟨hne, hlength, -⟩ := byteLength_operator op hlongest.listed
      have htext : c :: cs = op.toList ++ cs.drop (op.length - 1) := by
        obtain ⟨n, hn⟩ : ∃ n, op.toList.length = n + 1 :=
          Nat.exists_eq_add_one.2 (List.length_pos_iff.2 hne)
        have := List.prefix_iff_eq_append.1 hlongest.isPrefix
        rw [hn, List.drop_succ_cons] at this
        rw [hlength, hn, Nat.add_sub_cancel, this]
      -- whichever kind the operator has, it tells the same spelling
      suffices h : ∀ kind : Kind, kind.spelling? = some op.toList → kind.operator? = some op →
          kind.isIdentifier = false →
          Renders (c :: cs) (kind, ⟨o + op.length, cs.drop (op.length - 1)⟩) by
        dsimp only
        split
        · next hstar => exact h _ (hstar ▸ rfl) (hstar ▸ rfl) rfl
        · split
          · next hequal => exact h _ (hequal ▸ rfl) (hequal ▸ rfl) rfl
          · exact h _ rfl rfl rfl
      refine fun kind hspelling hoperator hname => ⟨fun s hs => ?_, fun op' hop' => ?_,
        fun name hidentifier => ?_⟩
      · rw [hspelling] at hs
        cases hs
        exact htext
      · rw [hoperator] at hop'
        cases hop'
        exact hlongest
      · cases hidentifier
        cases hname

/-- A literal renders its text if it does so where it is read without a fault. -/
theorem renders_kindOf {α : Type} {f : α → Kind} {r : Except LexicalFault α × Cursor}
    (h : ∀ a k, r = (.ok a, k) → Renders cs (f a, k)) : Renders cs (kindOf f r) := by
  obtain ⟨_ | a, k⟩ := r
  · exact renders_invalid
  · exact h a k rfl

/-- A string literal does not tell its spelling, and so renders any text. -/
theorem renders_string {r : Except LexicalFault String × Cursor} :
    Renders cs (kindOf .string r) :=
  renders_kindOf fun _ _ _ => ⟨nofun, nofun, nofun⟩

/-- A token that is no template is spelled as it stands in the text. -/
theorem renders_plain (afterOperand : Bool) (o : Nat) (c : Char) (cs : List Char) :
    Renders (c :: cs) (plain afterOperand o c cs) := by
  by_cases hc : c ∈ marks
  · simp only [marks, List.mem_cons, List.not_mem_nil, or_false] at hc
    rcases hc with rfl | rfl | rfl | rfl | rfl | rfl | rfl | rfl | rfl | rfl | rfl | rfl
    -- brackets and separators
    iterate 8 exact renders_of_spelling rfl rfl rfl rfl
    · exact renders_string
    · exact renders_string
    · exact renders_privateName ..
    · exact renders_invalid
  · rw [plain_of_not_mem_marks hc]
    split
    · exact renders_number ..
    split
    · next hdot => exact renders_of_spelling rfl rfl rfl (by rw [hdot.1]; rfl)
    split
    · next hslash => exact hslash.1 ▸ renders_regExp ..
    split
    · exact renders_number ..
    split
    · next hstart => exact renders_word hstart ..
    · exact renders_operator ..

/-- A template is spelled as it stands in the text, its substitutions included. -/
theorem renders_template (o : Nat) (cs : List Char) :
    Renders ('\x60' :: cs) (template ('\x60' :: cs) o cs) := by
  refine renders_kindOf fun _ k hk => ?_
  have hk' : templateTail .text [] ⟨o + 1, cs⟩ = (.ok (), k) := hk
  obtain ⟨taken, rfl, hoffset, -⟩ := (settles_templateTail .text [] ⟨0, cs⟩).takes hk'
  have hbytes : k.offset - o = Text.byteLength ('\x60' :: taken) := by
    rw [hoffset, Text.byteLength, Nat.add_assoc, Nat.add_sub_cancel_left]
    rfl
  refine renders_of_spelling rfl rfl rfl ?_
  rw [String.toList_ofList, hk', hbytes, ← List.cons_append, Text.takeBytes_append]

/-- Every token is spelled as it stands in the text. -/
theorem renders_significant (afterOperand : Bool) (o : Nat) (c : Char) (cs : List Char) :
    Renders (c :: cs) (significant afterOperand o c cs) := by
  unfold significant
  split
  · next hc => exact hc ▸ renders_template o cs
  · exact renders_plain ..

/-! ## All tokens -/

/-- The slice of a text between the lengths of two prefixes is what stands between them. -/
theorem slice_append (before mid after : List Char) :
    Text.slice (before ++ mid ++ after)
      ⟨Text.byteLength before, Text.byteLength (before ++ mid)⟩ = mid := by
  rw [Text.slice, Span.length, Text.byteLength_append, Nat.add_sub_cancel_left, List.append_assoc,
    Text.dropBytes_append, Text.takeBytes_append]

/-- The next token of a text, behind a blank. -/
theorem next_text {afterOperand : Bool} {o : Nat} {t : Token} {k : Cursor}
    (h : next afterOperand ⟨o, cs⟩ = (t, k)) :
    ∃ blank taken, cs = blank ++ taken ++ k.rest ∧ Text.Blank (t.kind = .endOfInput) blank ∧
      t.span = ⟨o + Text.byteLength blank, o + Text.byteLength (blank ++ taken)⟩ ∧
      Renders (taken ++ k.rest) (t.kind, k) := by
  obtain ⟨newline, k', hskip⟩ : ∃ newline k', skipBlank .outside false o cs = (newline, k') :=
    ⟨_, _, rfl⟩
  obtain ⟨blank, hblank, hoffset, -⟩ := (settles_skipBlank .outside false cs).takes hskip
  obtain ⟨blank', hblank', hfinishes⟩ := skipBlank_finishes hskip
  obtain rfl : blank' = blank := List.append_cancel_right (hblank'.symm.trans hblank)
  obtain ⟨o', rest⟩ := k'
  dsimp only at hblank hoffset hfinishes
  subst hblank hoffset
  rw [next_eq, hskip] at h
  cases rest with
  | nil =>
      cases h
      refine ⟨blank', [], by simp [fromHead], ?_, by simp [fromHead],
        renders_of_spelling rfl rfl rfl rfl⟩
      simpa [fromHead, BlankPlace.Finishes] using hfinishes
  | cons c rest =>
      cases hread : significant afterOperand (o + Text.byteLength blank') c rest with
      | mk kind k' =>
          obtain ⟨taken, htaken, hstop, -⟩ :=
            (settles_significant .endOfInput afterOperand (c :: rest)).takes hread
          have hne := significant_ne_endOfInput afterOperand (o + Text.byteLength blank') c rest
          have hrenders := renders_significant afterOperand (o + Text.byteLength blank') c rest
          rw [hread] at hne hrenders
          simp only [fromHead, hread] at h
          cases h
          refine ⟨blank', taken, by rw [htaken, List.append_assoc], ?_, ?_, htaken ▸ hrenders⟩
          · simpa [hne, BlankPlace.Finishes] using hfinishes
          · simp [hstop, Nat.add_assoc]

variable {text before : List Char} {afterOperand : Bool} {k : Cursor}

/-- A token read at a place of a text, and the place behind it. -/
theorem covers_next {t : Token} {k' : Cursor} (htext : text = before ++ k.rest)
    (hoffset : k.offset = Text.byteLength before) (h : next afterOperand k = (t, k')) :
    Covers text t ∧ Text.Blank (t.kind = .endOfInput) (Text.slice text ⟨k.offset, t.span.start⟩) ∧
      ∃ before', text = before' ++ k'.rest ∧ k'.offset = Text.byteLength before' := by
  obtain ⟨o, cs⟩ := k
  obtain ⟨blank, taken, rfl, hblank, hspan, hrenders⟩ := next_text h
  dsimp only at htext hoffset
  subst hoffset
  have hspan' : t.span = ⟨Text.byteLength (before ++ blank),
      Text.byteLength (before ++ blank ++ taken)⟩ := by
    simp [hspan]
  have hbehind : text = before ++ blank ++ (taken ++ k'.rest) := by simp [htext]
  have htaken : text = before ++ blank ++ taken ++ k'.rest := by simp [htext]
  refine ⟨⟨⟨before ++ blank, ⟨_, hbehind.symm⟩, by rw [hspan']⟩,
    ⟨before ++ blank ++ taken, ⟨_, htaken.symm⟩, by rw [hspan']⟩, fun s hs => ?_, fun op hop => ?_,
    hrenders.named⟩, ?_, before ++ blank ++ taken, htaken, by rw [(next_span h).2.2.1, hspan']⟩
  · rw [← List.append_cancel_right (hrenders.spelled s hs), hspan', htaken, slice_append]
  · rw [hspan', hbehind, Text.dropBytes_append]
    exact hrenders.longest op hop
  · rw [hspan', hbehind, slice_append]
    exact hblank

/-- Each token of a text covers characters of it. -/
theorem covers_tokensFrom (htext : text = before ++ k.rest)
    (hoffset : k.offset = Text.byteLength before) :
    ∀ t ∈ tokensFrom afterOperand k, Covers text t := by
  induction afterOperand, k using tokensFrom.induct generalizing before with
  | case1 afterOperand k t k' hnext hkind =>
      rw [tokensFrom_of_next hnext, if_pos hkind]
      exact List.forall_mem_singleton.2 (covers_next htext hoffset hnext).1
  | case2 afterOperand k t k' hnext hkind ih =>
      obtain ⟨hcovers, -, before', htext', hoffset'⟩ := covers_next htext hoffset hnext
      rw [tokensFrom_of_next hnext, if_neg hkind]
      exact List.forall_mem_cons.2 ⟨hcovers, ih htext' hoffset'⟩

/-- Nothing but a blank stands in front of the first token. -/
theorem leading_tokensFrom (htext : text = before ++ k.rest)
    (hoffset : k.offset = Text.byteLength before) {t : Token} {after : List Token}
    (h : tokensFrom afterOperand k = t :: after) :
    Text.Blank (t.kind = .endOfInput) (Text.slice text ⟨k.offset, t.span.start⟩) := by
  obtain ⟨u, k', hnext⟩ : ∃ u k', next afterOperand k = (u, k') := ⟨_, _, rfl⟩
  obtain rfl : u = t := by
    rw [tokensFrom_of_next hnext] at h
    split at h <;> exact (List.cons.inj h).1
  exact (covers_next htext hoffset hnext).2.1

/-- Nothing but a blank stands between a token and the next one. -/
theorem between_tokensFrom (htext : text = before ++ k.rest)
    (hoffset : k.offset = Text.byteLength before) {ts after : List Token} {t u : Token}
    (h : tokensFrom afterOperand k = ts ++ t :: u :: after) :
    Text.Blank (u.kind = .endOfInput) (Text.slice text ⟨t.span.stop, u.span.start⟩) := by
  induction afterOperand, k using tokensFrom.induct generalizing before ts with
  | case1 afterOperand k v k' hnext hkind =>
      rw [tokensFrom_of_next hnext, if_pos hkind] at h
      have := congrArg List.length h
      simp at this
      omega
  | case2 afterOperand k v k' hnext hkind ih =>
      obtain ⟨-, -, before', htext', hoffset'⟩ := covers_next htext hoffset hnext
      rw [tokensFrom_of_next hnext, if_neg hkind] at h
      cases ts with
      | nil =>
          obtain ⟨rfl, hrest⟩ := List.cons.inj h
          rw [← (next_span hnext).2.2.1]
          exact leading_tokensFrom htext' hoffset' hrest
      | cons v' ts => exact ih htext' hoffset' (List.cons.inj h).2

/-- What is left of a text at a place is cut into tokens. -/
theorem partition_tokensFrom (htext : text = before ++ k.rest)
    (hoffset : k.offset = Text.byteLength before) :
    Partition text k.offset (tokensFrom afterOperand k) where
  ends := by
    obtain ⟨ts, last, hts, hlast, hother⟩ := exists_tokensFrom_eq afterOperand k
    have hspan := span_of_endOfInput (hts ▸ List.mem_append_right ts (List.mem_singleton_self last))
      hlast
    rw [hoffset, ← Text.byteLength_append, ← htext] at hspan
    obtain ⟨kind, span, newlineBefore⟩ := last
    dsimp only at hlast hspan
    exact ⟨ts, newlineBefore, by rw [hts, hlast, hspan], hother⟩
  ordered := (ordered_tokensFrom afterOperand k).1
  covers := covers_tokensFrom htext hoffset
  leading _ _ h := leading_tokensFrom htext hoffset h
  between _ _ _ _ h := between_tokensFrom htext hoffset h

/-- Scanning loses nothing of a text: it ends, at the end of the text, and what is no token is a
blank. -/
theorem partition_ofChars (text : List Char) : Partition text 0 (ofChars text) :=
  partition_tokensFrom (k := ⟨0, text⟩) (List.nil_append text).symm rfl

end Token

end ModuleGraph
