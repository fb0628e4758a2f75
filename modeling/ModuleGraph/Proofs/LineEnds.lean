import ModuleGraph.Proofs.TokenTexts

/-!
# Line ends between tokens

A token knows whether a line ends in front of it. Outside of comments all four line terminators
count, inside of comments only line feed and carriage return. So the flag of a token tells whether a
line terminator stands between it and the token before, as long as no comment there has a line or
paragraph separator (`Token.newlineBefore_iff`). A separator in a comment goes unnoticed
(`Token.exists_newlineBefore_eq_false`).
-/

namespace ModuleGraph

namespace Text

/-- A blank whose characters outside of comments are `plain`, and whose comments have the characters
`comments` between their marks. The line end behind a line comment is outside of it. -/
inductive BlankParts (atEnd : Prop) : (plain comments blank : List Char) → Prop where
  | nil : BlankParts atEnd [] [] []
  | char {c : Char} {plain comments cs : List Char} (hc : isBlank c = true)
      (h : BlankParts atEnd plain comments cs) : BlankParts atEnd (c :: plain) comments (c :: cs)
  | line {body plain comments cs : List Char} {c : Char} (hbody : ∀ d ∈ body, d ≠ '\n' ∧ d ≠ '\r')
      (hc : c = '\n' ∨ c = '\r') (h : BlankParts atEnd plain comments cs) :
      BlankParts atEnd (c :: plain) (body ++ comments) ('/' :: '/' :: body ++ c :: cs)
  | lastLine {body : List Char} (hbody : ∀ d ∈ body, d ≠ '\n' ∧ d ≠ '\r') (hend : atEnd) :
      BlankParts atEnd [] body ('/' :: '/' :: body)
  | block {body plain comments cs : List Char} (hbody : ¬ ['*', '/'] <:+: body)
      (h : BlankParts atEnd plain comments cs) :
      BlankParts atEnd plain (body ++ comments) ('/' :: '*' :: body ++ '*' :: '/' :: cs)
  | openBlock {body : List Char} (hbody : ¬ ['*', '/'] <:+: body) (hend : atEnd) :
      BlankParts atEnd [] body ('/' :: '*' :: body)

/-- A line end that counts wherever it stands. -/
def isLineBreak (c : Char) : Bool :=
  c = '\n' ∨ c = '\r'

/-- Whether the parts of a blank have a line end that counts. -/
def crossesLine (plain comments : List Char) : Bool :=
  plain.any isLineTerminator || comments.any isLineBreak

variable {atEnd : Prop} {plain comments blank : List Char}

/-- Every blank has its characters outside of comments and those inside of them. -/
theorem Blank.exists_parts (h : Blank atEnd blank) :
    ∃ plain comments, BlankParts atEnd plain comments blank := by
  induction h with
  | nil => exact ⟨_, _, .nil⟩
  | char hc _ ih =>
      obtain ⟨plain, comments, h⟩ := ih
      exact ⟨_, _, .char hc h⟩
  | line hbody hc _ ih =>
      obtain ⟨plain, comments, h⟩ := ih
      exact ⟨_, _, .line hbody hc h⟩
  | lastLine hbody hend => exact ⟨_, _, .lastLine hbody hend⟩
  | block hbody _ ih =>
      obtain ⟨plain, comments, h⟩ := ih
      exact ⟨_, _, .block hbody h⟩
  | openBlock hbody hend => exact ⟨_, _, .openBlock hbody hend⟩

/-- The marks of comments end no line. -/
theorem BlankParts.mem_iff (h : BlankParts atEnd plain comments blank) {c : Char}
    (hc : isLineTerminator c = true) : c ∈ blank ↔ c ∈ plain ∨ c ∈ comments := by
  have hslash : c ≠ '/' := by
    rintro rfl
    cases hc
  have hstar : c ≠ '*' := by
    rintro rfl
    cases hc
  induction h with
  | nil => simp
  | char _ _ ih => simp [ih, or_assoc]
  | line _ _ _ ih =>
      simp only [List.cons_append, List.mem_cons, List.mem_append, hslash, false_or, ih, or_assoc,
        or_left_comm]
  | lastLine => simp [hslash]
  | block _ _ ih =>
      simp only [List.cons_append, List.mem_cons, List.mem_append, hslash, hstar, false_or, ih,
        or_left_comm]
  | openBlock => simp [hslash, hstar]

/-- Apart from separators, the line ends that count everywhere are all line terminators. -/
theorem isLineBreak_iff {c : Char} (hc : c ≠ '\u2028' ∧ c ≠ '\u2029') :
    isLineBreak c = isLineTerminator c := by
  have hseparators : (c == '\u2028') = false ∧ (c == '\u2029') = false := by
    simpa using hc
  rw [isLineBreak, isLineTerminator, hseparators.1, hseparators.2, Bool.or_false, Bool.or_false,
    Bool.decide_or]
  rfl

/-- A blank crosses a line by any terminator outside of comments, or by a line feed or carriage
return in one. -/
theorem crossesLine_iff : crossesLine plain comments = true ↔
    (∃ c ∈ plain, isLineTerminator c = true) ∨ ∃ c ∈ comments, c = '\n' ∨ c = '\r' := by
  simp [crossesLine, isLineBreak]

/-- Where no comment has a separator, each line terminator counts. -/
theorem BlankParts.crossesLine_iff (h : BlankParts atEnd plain comments blank)
    (hcomments : ∀ c ∈ comments, c ≠ '\u2028' ∧ c ≠ '\u2029') :
    crossesLine plain comments = true ↔ ∃ c ∈ blank, isLineTerminator c = true := by
  rw [crossesLine, Bool.or_eq_true, List.any_eq_true, List.any_eq_true]
  constructor
  · rintro (⟨c, hmem, hc⟩ | ⟨c, hmem, hc⟩)
    · exact ⟨c, (h.mem_iff hc).2 (.inl hmem), hc⟩
    · rw [isLineBreak_iff (hcomments c hmem)] at hc
      exact ⟨c, (h.mem_iff hc).2 (.inr hmem), hc⟩
  · rintro ⟨c, hmem, hc⟩
    refine ((h.mem_iff hc).1 hmem).imp (fun hplain => ⟨c, hplain, hc⟩) fun hmem => ⟨c, hmem, ?_⟩
    rw [isLineBreak_iff (hcomments c hmem), hc]

end Text

namespace Token

open Text (BlankParts crossesLine isLineBreak isLineTerminator)

/-! ## Skipping a blank -/

section Blanks

variable {body cs : List Char}

/-- At the end of the text no blank is left to skip. -/
theorem skipBlank_nil (p : BlankPlace) (newline : Bool) (o : Nat) :
    skipBlank p newline o [] = (newline, ⟨o, []⟩) := by
  cases p <;> rfl

/-- Two slashes open a line comment. -/
theorem skipBlank_lineComment (newline : Bool) (o : Nat) (cs : List Char) :
    skipBlank .outside newline o ('/' :: '/' :: cs) = skipBlank .line newline (o + 2) cs :=
  rfl

/-- A slash and a star open a block comment. -/
theorem skipBlank_blockComment (newline : Bool) (o : Nat) (cs : List Char) :
    skipBlank .outside newline o ('/' :: '*' :: cs) =
      skipBlank (.block false) newline (o + 2) cs :=
  rfl

/-- A line comment is skipped up to its line end. -/
theorem skipBlank_lineBody (hbody : ∀ d ∈ body, d ≠ '\n' ∧ d ≠ '\r') (newline : Bool) (o : Nat)
    (cs : List Char) : skipBlank .line newline o (body ++ cs) =
      skipBlank .line newline (o + Text.byteLength body) cs := by
  induction body generalizing o with
  | nil => rfl
  | cons d body ih =>
      obtain ⟨hd, hbody⟩ := List.forall_mem_cons.1 hbody
      rw [List.cons_append, skipBlank_line, if_neg (not_or.2 hd), ih hbody, Text.byteLength,
        ← Nat.add_assoc]

/-- The body of a comment is skipped up to the marks that close it, or to the end of the text. -/
theorem skipBlank_blockBody (afterStar : Bool)
    (hbody : ¬ ['*', '/'] <:+: if afterStar then '*' :: body else body)
    (newline : Bool) (o : Nat) (cs : List Char) :
    ∃ afterStar', skipBlank (.block afterStar) newline o (body ++ cs) =
      skipBlank (.block afterStar') (newline || body.any isLineBreak)
        (o + Text.byteLength body) cs := by
  induction body generalizing afterStar newline o with
  | nil => exact ⟨afterStar, by simp [Text.byteLength]⟩
  | cons d body ih =>
      have hclose : ¬ (afterStar = true ∧ d = '/') := by
        rintro ⟨rfl, rfl⟩
        exact hbody ⟨[], body, rfl⟩
      have hrest : ¬ ['*', '/'] <:+: if d = '*' then '*' :: body else body := by
        intro h
        have hsuffix : ['*', '/'] <:+: d :: body := by
          split at h
          · next hd => exact hd ▸ h
          · exact h.trans (List.infix_cons List.infix_rfl)
        refine hbody ?_
        split
        · exact hsuffix.trans (List.infix_cons List.infix_rfl)
        · exact hsuffix
      obtain ⟨afterStar', hread⟩ := ih (d = '*') (by simpa using hrest)
        (newline || d = '\n' || d = '\r') (o + d.utf8Size)
      refine ⟨afterStar', ?_⟩
      rw [List.cons_append, skipBlank_block, if_neg hclose, hread, Text.byteLength, List.any_cons,
        ← Nat.add_assoc]
      simp [isLineBreak, Bool.or_assoc]

/-- A closed comment is skipped, with the line breaks in it. -/
theorem skipBlank_comment (hbody : ¬ ['*', '/'] <:+: body) (newline : Bool) (o : Nat)
    (cs : List Char) : skipBlank (.block false) newline o (body ++ '*' :: '/' :: cs) =
      skipBlank .outside (newline || body.any isLineBreak) (o + Text.byteLength body + 2) cs := by
  obtain ⟨afterStar, hread⟩ := skipBlank_blockBody false hbody
    newline o ('*' :: '/' :: cs)
  rw [hread, skipBlank_block, if_neg (fun h => absurd h.2 (by decide)), skipBlank_block,
    if_pos ⟨by decide, rfl⟩]
  simp [Nat.add_assoc, Char.utf8Size]

/-- The two characters of a mark take two bytes. -/
theorem byteLength_marks {c d : Char} (h : c.utf8Size + d.utf8Size = 2) (cs : List Char) :
    Text.byteLength (c :: d :: cs) = 2 + Text.byteLength cs := by
  rw [Text.byteLength, Text.byteLength, ← Nat.add_assoc, h]

/-- The scanner skips a blank and notices the line ends in it that count. -/
theorem skipBlank_blank {atEnd : Prop} {plain comments blank rest : List Char}
    (h : BlankParts atEnd plain comments blank) (hend : atEnd → rest = []) (newline : Bool)
    (o : Nat) : skipBlank .outside newline o (blank ++ rest) =
      skipBlank .outside (newline || crossesLine plain comments) (o + Text.byteLength blank)
        rest := by
  have hline : ∀ {body : List Char}, (∀ d ∈ body, d ≠ '\n' ∧ d ≠ '\r') →
      body.any isLineBreak = false := by
    intro body hbody
    simpa [isLineBreak] using hbody
  -- the marks of a comment are ASCII
  have hopenLine := byteLength_marks (show '/'.utf8Size + '/'.utf8Size = 2 from rfl)
  have hopenBlock := byteLength_marks (show '/'.utf8Size + '*'.utf8Size = 2 from rfl)
  have hcloseBlock := byteLength_marks (show '*'.utf8Size + '/'.utf8Size = 2 from rfl)
  induction h generalizing newline o with
  | nil => simp [crossesLine, Text.byteLength]
  | char hc _ ih =>
      rw [List.cons_append, skipBlank_outside (absurd · (ne_slash_of_isBlank hc)), if_pos hc, ih]
      simp [crossesLine, Text.byteLength, Bool.or_assoc, Nat.add_assoc]
  | @line body plain comments cs c hbody hc _ ih =>
      have hterminator : isLineTerminator c = true := by
        rcases hc with rfl | rfl <;> rfl
      simp only [List.cons_append, List.append_assoc]
      rw [skipBlank_lineComment, skipBlank_lineBody hbody, skipBlank_line, if_pos hc, ih,
        hopenLine]
      simp [crossesLine, hline hbody, hterminator, Text.byteLength, Nat.add_assoc]
  | @lastLine body hbody hlast =>
      simp only [hend hlast, List.cons_append]
      rw [skipBlank_lineComment, skipBlank_lineBody hbody, hopenLine, crossesLine,
        hline hbody, skipBlank_nil, skipBlank_nil]
      simp [Nat.add_assoc]
  | @block body plain comments cs hbody _ ih =>
      simp only [List.cons_append, List.append_assoc]
      rw [skipBlank_blockComment, skipBlank_comment hbody, ih, hopenBlock,
        Text.byteLength_append, hcloseBlock]
      simp [crossesLine, Nat.add_assoc, Bool.or_assoc, Bool.or_left_comm]
  | @openBlock body hbody hlast =>
      simp only [hend hlast, List.cons_append]
      obtain ⟨afterStar, hread⟩ := skipBlank_blockBody false hbody newline (o + 2) []
      rw [skipBlank_blockComment, hread, hopenBlock, skipBlank_nil, skipBlank_nil]
      simp [crossesLine, Nat.add_assoc]

/-- Where nothing is skipped, no line end is noticed. -/
theorem newline_of_skipBlank {newline newline' : Bool} {o o' : Nat} {cs : List Char}
    (h : skipBlank .outside newline o cs = (newline', ⟨o', cs⟩)) : newline' = newline := by
  have hshorter : ∀ {p newline o} {rest : List Char}, rest.length < cs.length →
      skipBlank p newline o rest ≠ (newline', ⟨o', cs⟩) := by
    intro p newline o rest hlt heq
    have hle := skipBlank_le p newline o rest
    rw [heq] at hle
    exact absurd hle (Nat.not_le.2 hlt)
  rw [skipBlank.eq_def] at h
  split at h
  · exact (Prod.mk.inj h).1.symm
  · exact absurd h (hshorter (Nat.lt_succ_of_lt (Nat.lt_succ_self _)))
  · exact absurd h (hshorter (Nat.lt_succ_of_lt (Nat.lt_succ_self _)))
  · split at h
    · exact absurd h (hshorter (Nat.lt_succ_self _))
    · exact (Prod.mk.inj h).1.symm
  all_goals contradiction

end Blanks

/-! ## In front of a token -/

section Tokens

variable {text pre : List Char} {afterOperand : Bool} {k : Cursor} {before after : List Token}
  {t : Token}

/-- The text between the tokens `before` and the token `t` behind them. -/
def gap (text : List Char) (before : List Token) (t : Token) : List Char :=
  Text.slice text ⟨before.getLast?.elim 0 (·.span.stop), t.span.start⟩

/-- A token is read behind a blank, and knows what the scanner noticed there. -/
theorem next_blank {o : Nat} {cs : List Char} {k' : Cursor}
    (h : next afterOperand ⟨o, cs⟩ = (t, k')) : ∃ blank rest, cs = blank ++ rest ∧
      t.span.start = o + Text.byteLength blank ∧ (t.kind = .endOfInput → rest = []) ∧
      skipBlank .outside false o cs = (t.newlineBefore, ⟨t.span.start, rest⟩) := by
  cases hskip : skipBlank .outside false o cs with
  | mk newline k₁ =>
      obtain ⟨blank, hcs, hoffset, -⟩ := (settles_skipBlank .outside false cs).takes hskip
      obtain ⟨o₁, rest⟩ := k₁
      rw [next_eq, hskip] at h
      cases h
      refine ⟨blank, rest, hcs, hoffset, fun hend => ?_, rfl⟩
      cases rest with
      | nil => rfl
      | cons c rest => exact (significant_ne_endOfInput afterOperand o₁ c rest hend).elim

/-- In front of each token the scanner has skipped the text between it and the token before. -/
theorem skipBlank_tokensFrom (htext : text = pre ++ k.rest)
    (hoffset : k.offset = Text.byteLength pre)
    (h : tokensFrom afterOperand k = before ++ t :: after) :
    ∃ o o' blank rest, blank = Text.slice text
        ⟨before.getLast?.elim k.offset (·.span.stop), t.span.start⟩ ∧
      Text.Blank (t.kind = .endOfInput) blank ∧ (t.kind = .endOfInput → rest = []) ∧
      skipBlank .outside false o (blank ++ rest) = (t.newlineBefore, ⟨o', rest⟩) := by
  -- the blank in front of the next token; the induction leads to the one in front of `t`
  have hread : ∀ {afterOperand : Bool} {k k' : Cursor} {pre : List Char},
      text = pre ++ k.rest → k.offset = Text.byteLength pre → next afterOperand k = (t, k') →
      ∃ o o' blank rest, blank = Text.slice text ⟨k.offset, t.span.start⟩ ∧
        Text.Blank (t.kind = .endOfInput) blank ∧ (t.kind = .endOfInput → rest = []) ∧
        skipBlank .outside false o (blank ++ rest) = (t.newlineBefore, ⟨o', rest⟩) := by
    rintro afterOperand ⟨o, cs⟩ k' pre htext hoffset hnext
    obtain ⟨blank, rest, rfl, hstart, hend, hskip⟩ := next_blank hnext
    have hslice : blank = Text.slice text ⟨o, t.span.start⟩ := by
      dsimp only at htext hoffset
      rw [htext, hstart, hoffset, ← Text.byteLength_append, ← List.append_assoc, slice_append]
    exact ⟨o, _, blank, rest, hslice, hslice ▸ (covers_next htext hoffset hnext).2.1, hend, hskip⟩
  induction afterOperand, k using tokensFrom.induct generalizing pre before with
  | case1 afterOperand k u k' hnext hkind =>
      rw [tokensFrom_of_next hnext, if_pos hkind] at h
      cases before with
      | nil =>
          obtain ⟨rfl, -⟩ := List.cons.inj h
          exact hread htext hoffset hnext
      | cons v before => simp at h
  | case2 afterOperand k u k' hnext hkind ih =>
      rw [tokensFrom_of_next hnext, if_neg hkind] at h
      cases before with
      | nil =>
          obtain ⟨rfl, -⟩ := List.cons.inj h
          exact hread htext hoffset hnext
      | cons v before =>
          obtain ⟨rfl, hafter⟩ := List.cons.inj h
          obtain ⟨-, -, pre', htext', hoffset'⟩ := covers_next htext hoffset hnext
          have hlast : (u :: before).getLast?.elim k.offset (·.span.stop) =
              before.getLast?.elim k'.offset (·.span.stop) := by
            rw [List.getLast?_cons, (next_span hnext).2.2.1]
            cases before.getLast? <;> rfl
          rw [hlast]
          exact ih htext' hoffset' hafter

/-- A token knows whether a line ends in front of it: outside of comments by any line terminator,
inside of them by a line feed or carriage return. So it knows of every line terminator there, unless
a separator stands in a comment. -/
theorem newlineBefore_iff (h : ofChars text = before ++ t :: after) :
    (∃ plain comments, BlankParts (t.kind = .endOfInput) plain comments (gap text before t)) ∧
      ∀ plain comments, BlankParts (t.kind = .endOfInput) plain comments (gap text before t) →
        (t.newlineBefore = true ↔ (∃ c ∈ plain, isLineTerminator c = true) ∨
          ∃ c ∈ comments, c = '\n' ∨ c = '\r') ∧
        ((∀ c ∈ comments, c ≠ '\u2028' ∧ c ≠ '\u2029') →
          (t.newlineBefore = true ↔ ∃ c ∈ gap text before t, isLineTerminator c = true)) := by
  obtain ⟨o, o', blank, rest, hgap, hblank, hend, hskip⟩ :=
    skipBlank_tokensFrom (List.nil_append text).symm rfl h
  obtain rfl : blank = gap text before t := hgap
  refine ⟨hblank.exists_parts, fun plain comments hparts => ?_⟩
  rw [skipBlank_blank hparts hend, Bool.false_or] at hskip
  rw [newline_of_skipBlank hskip]
  exact ⟨Text.crossesLine_iff, hparts.crossesLine_iff⟩

/-- Two words on different lines: both kinds of comments stand between them, and a separator. -/
def partedWords : List Char :=
  "a//x\n/*\r*/\u2028b".toList

/-- The second word stands on a new line, behind a separator outside of comments and a carriage
return in one. -/
theorem newlineBefore_iff_partedWords : ∃ first second last,
    ofChars partedWords = [first] ++ second :: [last] ∧
      BlankParts (second.kind = .endOfInput) ['\n', '\u2028'] ['x', '\r']
        (gap partedWords [first] second) ∧
      (∀ c ∈ ['x', '\r'], c ≠ '\u2028' ∧ c ≠ '\u2029') ∧
      (∃ c ∈ gap partedWords [first] second, isLineTerminator c = true) ∧
      second.newlineBefore = true := by
  have htokens : ofChars partedWords = [⟨.identifier "a", ⟨0, 1⟩, false⟩] ++
      ⟨.identifier "b", ⟨13, 14⟩, true⟩ :: [⟨.endOfInput, ⟨14, 14⟩, false⟩] := by
    decide +kernel
  have hgap : gap partedWords [⟨.identifier "a", ⟨0, 1⟩, false⟩]
      ⟨.identifier "b", ⟨13, 14⟩, true⟩ = "//x\n/*\r*/\u2028".toList := by
    decide +kernel
  have hblock : BlankParts (Kind.identifier "b" = .endOfInput) ['\u2028'] ['\r']
      "/*\r*/\u2028".toList :=
    @BlankParts.block _ ['\r'] ['\u2028'] [] ['\u2028'] (by decide) (.char (by decide) .nil)
  have hparts : BlankParts (Kind.identifier "b" = .endOfInput) ['\n', '\u2028'] ['x', '\r']
      "//x\n/*\r*/\u2028".toList :=
    @BlankParts.line _ ['x'] _ _ _ '\n' (List.forall_mem_singleton.2 (by decide)) (.inl rfl) hblock
  have hterminator : ∃ c ∈ "//x\n/*\r*/\u2028".toList, isLineTerminator c = true :=
    ⟨'\n', by decide, rfl⟩
  rw [← hgap] at hparts hterminator
  have hcomments : ∀ c ∈ ['x', '\r'], c ≠ '\u2028' ∧ c ≠ '\u2029' :=
    List.forall_mem_cons.2 ⟨by decide, List.forall_mem_singleton.2 (by decide)⟩
  have hread := ((newlineBefore_iff htokens).2 _ _ hparts).2 hcomments
  exact ⟨_, _, _, htokens, hparts, hcomments, hterminator, hread.2 hterminator⟩

/-- A comment with a line separator between two words hides the line end from the second one. -/
theorem exists_newlineBefore_eq_false : ∃ text before t after,
    ofChars text = before ++ t :: after ∧
      (∃ c ∈ gap text before t, isLineTerminator c = true) ∧ t.newlineBefore = false := by
  refine ⟨"a/*\u2028*/b".toList, [⟨.identifier "a", ⟨0, 1⟩, false⟩],
    ⟨.identifier "b", ⟨8, 9⟩, false⟩, [⟨.endOfInput, ⟨9, 9⟩, false⟩], by decide +kernel,
    ⟨'\u2028', by decide +kernel, rfl⟩, rfl⟩

end Tokens

end Token

end ModuleGraph
