import ModuleGraph.Token.Lexer

/-!
# What the scanner reads of a text

Every reading function of the scanner is settled by the characters it takes: it takes them wherever
they stand, and also where less of the text follows. So the text in front of a closing brace has the
same tokens by itself as in its place (`Token.tokensFrom_cut`).
-/

namespace ModuleGraph

/-- A token moved `n` bytes to the right. -/
def Token.shift (n : Nat) (t : Token) : Token :=
  { t with span := t.span.shift n }

@[simp] theorem Token.shift_kind (n : Nat) (t : Token) : (t.shift n).kind = t.kind := rfl

@[simp] theorem Token.shift_newlineBefore (n : Nat) (t : Token) :
    (t.shift n).newlineBefore = t.newlineBefore := rfl

@[simp] theorem Token.shift_span (n : Nat) (t : Token) : (t.shift n).span = t.span.shift n := rfl

namespace Token

variable {α β : Type} {f g g' : Nat → List Char → α × Cursor} {taken rest cs : List Char} {a : α}

/-- The scanner `f` takes `taken` and gives `a` where `rest` follows, and so it does at every offset
and where less follows. -/
def Takes (f : Nat → List Char → α × Cursor) (taken rest : List Char) (a : α) : Prop :=
  ∀ o seen, seen <+: rest → f o (taken ++ seen) = (a, ⟨o + Text.byteLength taken, seen⟩)

/-- What `f` makes of a text is settled by the characters it takes. -/
def Settles (f : Nat → List Char → α × Cursor) (cs : List Char) : Prop :=
  ∃ taken rest a, cs = taken ++ rest ∧ Takes f taken rest a

/-- What a function takes in front of a rest settles it on the text of both. -/
theorem Settles.take (pre : List Char) (a : α) (h : Takes f pre rest a) :
    Settles f (pre ++ rest) :=
  ⟨pre, rest, a, rfl, h⟩

/-- A function that takes nothing, however much of the text it sees. -/
theorem Settles.stop (h : ∀ o seen, seen <+: cs → f o seen = (a, ⟨o, seen⟩)) : Settles f cs :=
  .take [] a h

/-- A function that is settled takes what stands in front of the place where it ends. -/
theorem Settles.takes {o : Nat} {k : Cursor} (hs : Settles f cs) (h : f o cs = (a, k)) :
    ∃ taken, cs = taken ++ k.rest ∧ k.offset = o + Text.byteLength taken ∧
      Takes f taken k.rest a := by
  obtain ⟨taken, rest, a', rfl, ht⟩ := hs
  rw [ht o rest List.prefix_rfl] at h
  cases h
  exact ⟨taken, rfl, rfl, ht⟩

/-- Reading goes on with `g` behind the leading characters `pre`. -/
theorem Settles.append {g : Nat → List Char → β × Cursor} (φ : β → α) (pre : List Char)
    (h : Settles g cs)
    (hf : ∀ o seen, seen <+: cs →
      f o (pre ++ seen) = (g (o + Text.byteLength pre) seen).map φ id) :
    Settles f (pre ++ cs) := by
  obtain ⟨taken, rest, b, rfl, ht⟩ := h
  refine ⟨pre ++ taken, rest, φ b, (List.append_assoc ..).symm, fun o seen hseen => ?_⟩
  rw [List.append_assoc, hf o _ ((List.prefix_append_right_inj taken).2 hseen), ht _ _ hseen]
  simp [Nat.add_assoc]

/-- Reading goes on with `g'` where `g` has stopped. -/
theorem Settles.andThen {g : Nat → List Char → β × Cursor} {o : Nat} {b : β} {k : Cursor}
    (hs : Settles g cs) (h : g o cs = (b, k)) (hg' : Settles g' k.rest)
    (hf : ∀ o seen k, seen <+: cs → g o seen = (b, k) → f o seen = g' k.offset k.rest) :
    Settles f cs := by
  obtain ⟨taken, hcs, -, ht⟩ := hs.takes h
  obtain ⟨taken', rest, a, hrest, ht'⟩ := hg'
  refine ⟨taken ++ taken', rest, a, by rw [hcs, hrest, List.append_assoc], fun o seen hseen => ?_⟩
  have hseen' : taken' ++ seen <+: k.rest := hrest ▸ (List.prefix_append_right_inj taken').2 hseen
  have hall : taken ++ (taken' ++ seen) <+: cs :=
    hcs ▸ (List.prefix_append_right_inj taken).2 hseen'
  rw [List.append_assoc, hf _ _ _ hall (ht o _ hseen'), ht' _ _ hseen]
  simp [Nat.add_assoc]

/-- What is made of a settled result is settled. -/
theorem Settles.map {g : Nat → List Char → β × Cursor} (φ : β → α) (h : Settles g cs)
    (hf : ∀ o cs, f o cs = (g o cs).map φ id) : Settles f cs :=
  Settles.append φ [] h fun o seen _ => hf o seen

/-- A function that takes nothing, whether it sees the next character or the end. -/
theorem Settles.stop_cons {c : Char} (hnil : ∀ o, f o [] = (a, ⟨o, []⟩))
    (hcons : ∀ o seen, seen <+: cs → f o (c :: seen) = (a, ⟨o, c :: seen⟩)) :
    Settles f (c :: cs) :=
  .stop fun o seen h => by
    cases seen with
    | nil => exact hnil o
    | cons c' seen =>
        obtain ⟨rfl, hseen⟩ := List.cons_prefix_cons.1 h
        exact hcons o seen hseen

/-! ## Blanks -/

/-- A blank character is no slash. -/
theorem ne_slash_of_isBlank {c : Char} (hblank : Text.isBlank c = true) : c ≠ '/' := by
  rintro rfl
  revert hblank
  decide

/-- Outside of a comment, where none starts, a blank is skipped. -/
theorem skipBlank_outside {c : Char} {cs : List Char}
    (hc : c = '/' → ∀ cs', cs ≠ '/' :: cs' ∧ cs ≠ '*' :: cs') (newline : Bool) (o : Nat) :
    skipBlank .outside newline o (c :: cs) =
      if Text.isBlank c then
        skipBlank .outside (newline || Text.isLineTerminator c) (o + c.utf8Size) cs
      else (newline, ⟨o, c :: cs⟩) := by
  rw [skipBlank.eq_def]
  split <;> simp_all

/-- A line comment goes on up to a line feed or carriage return. -/
theorem skipBlank_line (newline : Bool) (o : Nat) (c : Char) (cs : List Char) :
    skipBlank .line newline o (c :: cs) =
      if c = '\n' ∨ c = '\r' then skipBlank .outside true (o + c.utf8Size) cs
      else skipBlank .line newline (o + c.utf8Size) cs := by
  rw [skipBlank.eq_def]
  split <;> simp_all

/-- A block comment goes on up to a slash behind a star. -/
theorem skipBlank_block (afterStar newline : Bool) (o : Nat) (c : Char) (cs : List Char) :
    skipBlank (.block afterStar) newline o (c :: cs) =
      if afterStar ∧ c = '/' then skipBlank .outside newline (o + c.utf8Size) cs
      else skipBlank (.block (c = '*')) (newline || c = '\n' || c = '\r')
        (o + c.utf8Size) cs := by
  rw [skipBlank.eq_def]
  split <;> simp_all

/-- A blank is settled by its characters. -/
theorem settles_skipBlank (p : BlankPlace) (newline : Bool) (cs : List Char) :
    Settles (skipBlank p newline) cs := by
  suffices h : ∀ o : Nat, Settles (skipBlank p newline) cs from h 0
  intro o
  fun_induction skipBlank p newline o cs with
  | case1 p newline o =>
      exact .stop fun o seen h => by rw [List.prefix_nil.1 h, skipBlank.eq_def]
  | case2 newline o cs ih => exact ih.append id ['/', '/'] fun o seen _ => rfl
  | case3 newline o cs ih => exact ih.append id ['/', '*'] fun o seen _ => rfl
  | case4 newline o c cs hline hblock hblank ih =>
      refine ih.append id [c] fun o seen _ => ?_
      rw [List.singleton_append, skipBlank_outside (absurd · (ne_slash_of_isBlank hblank)),
        if_pos hblank]
      rfl
  | case5 newline o c cs hline hblock hblank =>
      -- a slash that starts no comment starts none where less follows
      refine .stop_cons (a := newline) (fun o => rfl) fun o seen hseen => ?_
      have hc : c = '/' → ∀ cs', seen ≠ '/' :: cs' ∧ seen ≠ '*' :: cs' := by
        rintro rfl cs'
        constructor
        · rintro rfl
          obtain ⟨more, rfl⟩ := hseen
          exact hline _ rfl rfl
        · rintro rfl
          obtain ⟨more, rfl⟩ := hseen
          exact hblock _ rfl rfl
      rw [skipBlank_outside hc, if_neg hblank]
  | case6 newline o c cs hc ih =>
     refine ih.append id [c] fun o seen _ => ?_
     rw [List.singleton_append, skipBlank_line, if_pos hc]
     rfl
  | case7 newline o c cs hc ih =>
     refine ih.append id [c] fun o seen _ => ?_
     rw [List.singleton_append, skipBlank_line, if_neg hc]
     rfl
  | case8 afterStar newline o c cs hc ih =>
     refine ih.append id [c] fun o seen _ => ?_
     rw [List.singleton_append, skipBlank_block, if_pos hc]
     rfl
  | case9 afterStar newline o c cs hc ih =>
     refine ih.append id [c] fun o seen _ => ?_
     rw [List.singleton_append, skipBlank_block, if_neg hc]
     rfl

/-! ## Words and numbers -/

/-- Taking characters is settled by those that are taken. -/
theorem settles_takeWhile (p : Char → Bool) (cs : List Char) : Settles (takeWhile p) cs := by
  induction cs with
  | nil => exact .stop fun o seen h => by rw [List.prefix_nil.1 h, takeWhile]
  | cons c cs ih =>
      by_cases hc : p c
      · refine ih.append (c :: ·) [c] fun o seen _ => ?_
        simp [takeWhile, hc, Text.byteLength]
      · exact .stop_cons (fun o => rfl) fun o seen _ => by simp [takeWhile, hc]

/-- The rest of a number is settled by its characters. -/
theorem settles_numberTail (hexadecimal : Bool) (last : Char) (cs : List Char) :
    Settles (numberTail hexadecimal last) cs := by
  induction cs generalizing last with
  | nil => exact .stop fun o seen h => by rw [List.prefix_nil.1 h, numberTail]
  | cons c cs ih =>
      by_cases hc : (c.isAlphanum || c == '_' || c == '.'
          || ((c == '+' || c == '-') && (last == 'e' || last == 'E') && !hexadecimal)) = true
      · refine (ih c).append (c :: ·) [c] fun o seen _ => ?_
        rw [List.singleton_append, numberTail, if_pos hc]
        simp [Text.byteLength]
      · refine .stop_cons (fun o => rfl) fun o seen _ => ?_
        rw [numberTail, if_neg hc]

/-! ## Strings -/

/-- The digits of an escape are settled by their characters. -/
theorem settles_hexCode (n code : Nat) (cs : List Char) : Settles (hexCode n code) cs := by
  induction n generalizing code cs with
  | zero => exact .stop fun o seen _ => rfl
  | succ n ih =>
      cases cs with
      | nil => exact .stop fun o seen h => by rw [List.prefix_nil.1 h, hexCode]
      | cons c cs =>
          cases hd : hexDigit? c with
          | some d =>
              refine (ih (code * 16 + d) cs).append id [c] fun o seen _ => ?_
              simp [hexCode, hd, Text.byteLength]
          | none => exact .stop_cons (fun o => rfl) fun o seen _ => by simp [hexCode, hd]

/-- The digits between braces are settled by their characters. -/
theorem settles_bracedCode (code : Nat) (cs : List Char) : Settles (bracedCode code) cs := by
  induction cs generalizing code with
  | nil => exact .stop fun o seen h => by rw [List.prefix_nil.1 h, bracedCode]
  | cons c cs ih =>
      cases hd : hexDigit? c with
      | some d =>
          refine (ih (code * 16 + d)).append id [c] fun o seen _ => ?_
          simp [bracedCode, hd, Text.byteLength]
      | none =>
          refine Settles.take [c] code fun o seen _ => ?_
          simp [bracedCode, hd, Text.byteLength]

/-- An escape that is one character long. -/
theorem escape_single {c : Char} {cs : List Char} (hx : c ≠ 'x') (hu : c ≠ 'u')
    (hr : c = '\r' → ∀ cs', cs ≠ '\n' :: cs') (o : Nat) :
    escape o (c :: cs) = ((escape 0 [c]).1, ⟨o + c.utf8Size, cs⟩) := by
  rw [escape.eq_def, escape.eq_def]
  split <;> simp_all

/-- Without a brace four digits follow the mark of an escape. -/
theorem escape_unicode {cs : List Char} (h : ∀ cs', cs ≠ '\x7b' :: cs') (o : Nat) :
    escape o ('u' :: cs) = (hexCode 4 0 (o + 1) cs).map (fun code => [charOfCode code]) id := by
  rw [escape.eq_def]
  split <;> grind

/-- An escape is settled by its characters. -/
theorem settles_escape (cs : List Char) : Settles escape cs := by
  suffices h : ∀ o : Nat, Settles escape cs from h 0
  intro o
  fun_cases escape o cs with
  | case1 => exact .stop fun o seen h => by rw [List.prefix_nil.1 h, escape.eq_def]
  | case2 o cs =>
      exact (settles_hexCode 2 0 cs).append (fun code => [charOfCode code]) ['x']
        fun o seen _ => rfl
  | case3 o cs =>
      exact (settles_bracedCode 0 cs).append (fun code => [charOfCode code])
        ['u', '\x7b'] fun o seen _ => rfl
  | case4 o cs hbrace =>
      refine (settles_hexCode 4 0 cs).append (fun code => [charOfCode code]) ['u']
        fun o seen hseen => ?_
      rw [List.singleton_append, escape_unicode]
      · rfl
      · rintro cs' rfl
        obtain ⟨more, rfl⟩ := hseen
        exact hbrace _ rfl
  | case5 o cs => exact Settles.take ['\r', '\n'] [] fun o seen _ => rfl
  | case6 o c cs hx hbrace hu hr =>
      refine Settles.take [c] ((escape 0 [c]).1) fun o seen hseen => ?_
      rw [List.singleton_append, escape_single hx hu]
      · simp [Text.byteLength]
      · rintro rfl cs' rfl
        obtain ⟨more, rfl⟩ := hseen
        exact hr _ rfl rfl

/-- The rest of a string is settled by its characters. -/
theorem settles_stringTail (quote : Char) (value cs : List Char) :
    Settles (stringTail quote value) cs := by
  suffices h : ∀ o : Nat, Settles (stringTail quote value) cs from h 0
  intro o
  fun_induction stringTail quote value o cs with
  | case1 value o => exact .stop fun o seen h => by rw [List.prefix_nil.1 h, stringTail]
  | case2 value o cs =>
      refine Settles.take ['\n'] (.error .unterminatedString) fun o seen _ => ?_
      rw [List.singleton_append, stringTail, if_pos rfl]
      rfl
  | case3 value o cs hline =>
      refine Settles.take [quote] (.ok (String.ofList value.reverse)) fun o seen _ => ?_
      rw [List.singleton_append, stringTail, if_neg hline, if_pos rfl]
      simp [Text.byteLength]
  | case4 value o cs r hline hquote ih =>
      have hescape : escape (o + 1) cs = (r.1, r.2) := rfl
      have htail : Settles (fun o cs => stringTail quote ((escape o cs).1.reverse ++ value)
          (escape o cs).2.offset (escape o cs).2.rest) cs :=
        (settles_escape cs).andThen hescape ih fun o seen k _ hk => by rw [hk]
      refine htail.append id ['\\'] fun o seen _ => ?_
      rw [List.singleton_append, stringTail, if_neg hline, if_neg hquote, if_pos rfl]
      rfl
  | case5 value o c cs hline hquote hslash ih =>
      refine ih.append id [c] fun o seen _ => ?_
      rw [List.singleton_append, stringTail, if_neg hline, if_neg hquote, if_neg hslash]
      simp [Text.byteLength]

/-- A literal is settled if what it is read from is. -/
theorem settles_kindOf {read : Nat → List Char → Except LexicalFault β × Cursor}
    (f : β → Kind) (h : Settles read cs) : Settles (fun o cs => kindOf f (read o cs)) cs := by
  obtain ⟨taken, rest, r, rfl, ht⟩ := h
  refine ⟨taken, rest, (kindOf f (r, ⟨0, []⟩)).1, rfl, fun o seen hseen => ?_⟩
  simp only [ht o seen hseen]
  cases r <;> rfl

/-! ## Regular expressions -/

/-- A pattern goes on over a character that does not close it, inside of a class or not. -/
theorem patternTail_cons {inClass : Bool} {c : Char} (hc : c ≠ '\\') (o : Nat) (cs : List Char) :
    patternTail inClass o (c :: cs) =
      if c = '\n' ∨ c = '\r' then (.error .unterminatedRegExp, ⟨o + 1, cs⟩)
      else if c = '/' ∧ !inClass then (.ok [], ⟨o + 1, cs⟩)
      else
        let inClass := if c = '[' then true else if c = ']' then false else inClass
        (patternTail inClass (o + c.utf8Size) cs).map (Except.map (c :: ·)) id := by
  rw [patternTail.eq_def]
  split <;> simp_all

/-- The rest of a pattern is settled by its characters. -/
theorem settles_patternTail (inClass : Bool) (cs : List Char) :
    Settles (patternTail inClass) cs := by
  suffices h : ∀ o : Nat, Settles (patternTail inClass) cs from h 0
  intro o
  fun_induction patternTail inClass o cs with
  | case1 inClass o => exact .stop fun o seen h => by rw [List.prefix_nil.1 h, patternTail.eq_def]
  | case2 inClass o =>
      refine Settles.take ['\\'] (.error .unterminatedRegExp) (fun o seen h => ?_ :
        Takes _ _ [] _)
      rw [List.prefix_nil.1 h]
      rfl
  | case3 inClass o c cs ih =>
      refine ih.append (Except.map ('\\' :: c :: ·)) ['\\', c] fun o seen _ => ?_
      rw [Text.byteLength, Text.byteLength, Text.byteLength, Nat.add_zero, ← Nat.add_assoc]
      rfl
  | case4 inClass o c cs hend hslash hline =>
      refine Settles.take [c] (.error .unterminatedRegExp) fun o seen _ => ?_
      have hc : c ≠ '\\' := by rintro rfl; revert hline; decide
      rw [List.singleton_append, patternTail_cons hc, if_pos hline]
      obtain rfl | rfl := hline <;> rfl
  | case5 inClass o c cs hend hslash hline hclose =>
      obtain ⟨rfl, hclass⟩ := hclose
      refine Settles.take ['/'] (.ok []) fun o seen _ => ?_
      rw [List.singleton_append, patternTail_cons (by decide), if_neg hline, if_pos ⟨rfl, hclass⟩]
      rfl
  | case6 inClass o c cs hend hslash hline hclose inClass' ih =>
      have hc : c ≠ '\\' := by
        rintro rfl
        cases cs with
        | nil => exact hend rfl rfl
        | cons c cs => exact hslash c cs rfl rfl
      refine ih.append (Except.map (c :: ·)) [c] fun o seen _ => ?_
      rw [List.singleton_append, patternTail_cons hc, if_neg hline, if_neg hclose]
      rfl

/-- A regular expression is settled by its characters. -/
theorem settles_regExp (cs : List Char) : Settles regExp cs := by
  cases h : patternTail false 0 cs with
  | mk r k =>
      cases r with
      | error e =>
          obtain ⟨taken, hcs, -, ht⟩ := (settles_patternTail false cs).takes h
          refine ⟨taken, k.rest, .invalid e, hcs, fun o seen hseen => ?_⟩
          rw [regExp, ht o seen hseen]
      | ok pattern =>
          have hflags : Settles (fun o cs => (takeWhile Text.isIdentifierContinue o cs).map
              (fun flags => Kind.regExp (String.ofList pattern) (String.ofList flags)) id) k.rest :=
            (settles_takeWhile _ k.rest).map _ fun o cs => rfl
          refine (settles_patternTail false cs).andThen h hflags fun o seen k _ hk => ?_
          rw [regExp, hk]

/-! ## Operators -/

/-- An operator takes as many bytes as it has characters, and has one at least. -/
theorem byteLength_operator : ∀ op ∈ operators, op.toList ≠ [] ∧
    op.length = op.toList.length ∧ op.length = Text.byteLength op.toList := by
  decide

/-- The function that reads from a token's first character on, with the kind `atEnd` where there
is none. -/
def fromHead (atEnd : Kind) (f : Nat → Char → List Char → Kind × Cursor) (o : Nat) :
    List Char → Kind × Cursor
  | [] => (atEnd, ⟨o, []⟩)
  | c :: cs => f o c cs

/-- An operator that is found in a text is found in each shorter one that it is in. -/
theorem find?_operator_of_prefix {op : String} {cs cs' : List Char} (hcs : cs' <+: cs)
    (h : operators.find? (fun op => op.toList.isPrefixOf cs) = some op)
    (hop : op.toList <+: cs') :
    operators.find? (fun op => op.toList.isPrefixOf cs') = some op := by
  obtain ⟨-, before, after, hbefore, hnone⟩ := List.find?_eq_some_iff_append.1 h
  refine List.find?_eq_some_iff_append.2
    ⟨List.isPrefixOf_iff_prefix.2 hop, before, after, hbefore, fun op' hop' => ?_⟩
  -- an operator that starts the shorter text starts the longer one
  have := hnone op' hop'
  simp only [Bool.not_eq_true', ← Bool.not_eq_true, List.isPrefixOf_iff_prefix] at this ⊢
  exact fun h => this (h.trans hcs)

/-- An operator is settled by its characters. -/
theorem settles_operator (atEnd : Kind) (c : Char) (cs : List Char) :
    Settles (fromHead atEnd operator) (c :: cs) := by
  cases h : operators.find? fun op => op.toList.isPrefixOf (c :: cs) with
  | none =>
      refine Settles.take [c] (.invalid (.unexpected c)) fun o seen hseen => ?_
      have hnone : operators.find? (fun op => op.toList.isPrefixOf (c :: seen)) = none := by
        rw [List.find?_eq_none] at h ⊢
        intro op hop hprefix
        have := List.isPrefixOf_iff_prefix.1 hprefix
        exact h op hop (List.isPrefixOf_iff_prefix.2
          (this.trans (List.cons_prefix_cons.2 ⟨rfl, hseen⟩)))
      simp only [List.singleton_append, fromHead, operator, hnone]
      simp [Text.byteLength]
  | some op =>
      obtain ⟨hne, hlength, hbytes⟩ := byteLength_operator op (List.mem_of_find?_eq_some h)
      have hprefix : op.toList <+: c :: cs := by
        have := List.find?_some h
        exact List.isPrefixOf_iff_prefix.1 this
      obtain ⟨tail, htail⟩ : ∃ tail, op.toList = c :: tail := by
        obtain ⟨d, tail, htail⟩ := List.exists_cons_of_ne_nil hne
        rw [htail] at hprefix
        exact ⟨tail, (List.cons_prefix_cons.1 hprefix).1 ▸ htail⟩
      obtain ⟨rest, hrest⟩ := hprefix
      rw [← hrest]
      refine Settles.take op.toList
        (if op = "*" then .star else if op = "=" then .equal else .operator op)
        fun o seen hseen => ?_
      have hfind := find?_operator_of_prefix
        (hrest ▸ (List.prefix_append_right_inj op.toList).2 hseen) h (List.prefix_append ..)
      have hdrop : (tail ++ seen).drop (op.length - 1) = seen := by
        rw [hlength, htail, List.length_cons, Nat.add_sub_cancel, List.drop_left]
      rw [htail, List.cons_append] at hfind ⊢
      simp only [fromHead, operator, hfind, hdrop, ← htail, ← hbytes]
      split <;> (try split) <;> rfl

/-! ## Single tokens -/

/-- A token is settled by its characters if what follows the first one is settled. -/
theorem settles_fromHead {atEnd : Kind} {f : Nat → Char → List Char → Kind × Cursor} {c : Char}
    (h : Settles g cs) (φ : α → Kind)
    (hf : ∀ o seen, seen <+: cs → f o c seen = (g (o + c.utf8Size) seen).map φ id) :
    Settles (fromHead atEnd f) (c :: cs) := by
  refine h.append φ [c] fun o seen hseen => ?_
  rw [List.singleton_append, fromHead, hf o seen hseen]
  simp [Text.byteLength]

/-- The characters that settle what token they start. -/
def marks : List Char :=
  ['\x7b', '\x7d', '(', ')', '[', ']', ';', ',', '"', '\'', '#', '\\']

/-- Without a mark at its start a token is a number, a dot, a regular expression, a word or an
operator. -/
theorem plain_of_not_mem_marks {c : Char} (hc : c ∉ marks) (afterOperand : Bool) (o : Nat)
    (cs : List Char) :
    plain afterOperand o c cs =
      if c = '.' ∧ cs.head?.any Char.isDigit then number c (o + c.utf8Size) cs
      else if c = '.' ∧ cs.take 2 ≠ ['.', '.'] then (.dot, ⟨o + c.utf8Size, cs⟩)
      else if c = '/' ∧ !afterOperand then regExp (o + c.utf8Size) cs
      else if c.isDigit then number c (o + c.utf8Size) cs
      else if Text.isIdentifierStart c then word c (o + c.utf8Size) cs
      else operator o c cs := by
  simp only [marks, List.mem_cons, List.not_mem_nil, or_false, not_or] at hc
  rw [plain.eq_def]
  dsimp only
  split <;> first | rfl | simp_all

/-- A number that is not hexadecimal is not so in a shorter text. -/
theorem isHexadecimal_of_prefix {c : Char} {cs cs' : List Char} (hcs : cs' <+: cs)
    (h : isHexadecimal c cs = false) : isHexadecimal c cs' = false := by
  obtain ⟨more, rfl⟩ := hcs
  cases cs' with
  | nil => simp [isHexadecimal]
  | cons d cs' => exact h

/-- A number is settled by its characters. -/
theorem settles_number (c : Char) (cs : List Char) : Settles (number c) cs := by
  cases hx : isHexadecimal c cs with
  | true =>
      obtain ⟨d, cs, rfl⟩ : ∃ d cs', cs = d :: cs' := by
        cases cs with
        | nil => simp [isHexadecimal] at hx
        | cons d cs => exact ⟨d, cs, rfl⟩
      have hd : d = 'x' ∨ d = 'X' := by
        simp only [isHexadecimal, List.head?_cons, Bool.and_eq_true, Bool.or_eq_true,
          beq_iff_eq, Option.some.injEq] at hx
        exact hx.2
      refine (settles_numberTail true d cs).append
        (fun text => .number (String.ofList (c :: d :: text))) [d] fun o seen _ => ?_
      have hx' : isHexadecimal c (d :: seen) = true := hx
      have hdigit : d.isAlphanum = true := by obtain rfl | rfl := hd <;> rfl
      rw [List.singleton_append, number, hx', numberTail, if_pos (by rw [hdigit]; rfl)]
      rfl
  | false =>
      obtain ⟨taken, rest, text, rfl, ht⟩ := settles_numberTail false c cs
      refine ⟨taken, rest, .number (String.ofList (c :: text)), rfl, fun o seen hseen => ?_⟩
      rw [number, isHexadecimal_of_prefix ((List.prefix_append_right_inj taken).2 hseen) hx,
        ht o seen hseen]
      rfl

/-- A token that starts with a dot is settled by its characters. -/
theorem settles_plain_dot (atEnd : Kind) (afterOperand : Bool) (cs : List Char) :
    Settles (fromHead atEnd (plain afterOperand)) ('.' :: cs) := by
  have hplain := plain_of_not_mem_marks (c := '.') (by decide) afterOperand
  by_cases hdigit : cs.head?.any Char.isDigit
  · obtain ⟨d, cs, rfl⟩ : ∃ d cs', cs = d :: cs' := by
      cases cs with
      | nil => simp at hdigit
      | cons d cs => exact ⟨d, cs, rfl⟩
    have hd : d.isAlphanum = true := by
      have : d.isDigit = true := by simpa using hdigit
      simp [Char.isAlphanum, this]
    refine (settles_numberTail false d cs).append
      (fun text => .number (String.ofList ('.' :: d :: text))) ['.', d] fun o seen _ => ?_
    rw [List.cons_append, List.singleton_append, fromHead, hplain, if_pos ⟨rfl, hdigit⟩, number,
      show isHexadecimal '.' (d :: seen) = false from rfl, numberTail, if_pos (by rw [hd]; rfl)]
    rw [Text.byteLength, Text.byteLength, Text.byteLength, Nat.add_zero, ← Nat.add_assoc]
    rfl
  by_cases hdots : cs.take 2 = ['.', '.']
  · -- three dots are one operator
    obtain ⟨cs', rfl⟩ : ∃ cs', cs = '.' :: '.' :: cs' :=
      ⟨cs.drop 2, by simpa [hdots] using (List.take_append_drop 2 cs).symm⟩
    refine Settles.take ['.', '.', '.'] (.operator "...") fun o seen _ => ?_
    rw [List.cons_append, fromHead, hplain, if_neg (by simp), if_neg (by simp)]
    rfl
  -- neither a digit nor two dots stand behind it, and no part of what follows begins otherwise
  · refine Settles.take ['.'] .dot fun o seen hseen => ?_
    have hdigit' : ¬ seen.head?.any Char.isDigit := by
      cases seen with
      | nil => simp
      | cons d seen =>
          obtain ⟨more, rfl⟩ := hseen
          exact hdigit
    have hdots' : seen.take 2 ≠ ['.', '.'] := by
      intro h
      obtain ⟨more, rfl⟩ := hseen
      have hlength := congrArg List.length h
      simp only [List.length_take, List.length_cons, List.length_nil] at hlength
      exact hdots (by rw [List.take_append_of_le_length (by omega), h])
    rw [List.singleton_append, fromHead, hplain, if_neg (hdigit' ·.2), if_pos ⟨rfl, hdots'⟩]
    rfl

/-- A token that its first character settles, apart from a string or a private name, is no longer
than this character. -/
theorem plain_of_mem_marks {c : Char} (hc : c ∈ marks) (hdouble : c ≠ '"') (hsingle : c ≠ '\'')
    (hprivate : c ≠ '#') : ∃ kind, ∀ afterOperand o cs,
      plain afterOperand o c cs = (kind, ⟨o + c.utf8Size, cs⟩) := by
  simp only [marks, List.mem_cons, List.not_mem_nil, or_false] at hc
  rcases hc with rfl | rfl | rfl | rfl | rfl | rfl | rfl | rfl | rfl | rfl | rfl | rfl <;>
    first | exact ⟨_, fun _ _ _ => rfl⟩ | contradiction

/-- A token that is no template is settled by its characters. -/
theorem settles_plain (atEnd : Kind) (afterOperand : Bool) (c : Char) (cs : List Char) :
    Settles (fromHead atEnd (plain afterOperand)) (c :: cs) := by
  by_cases hc : c ∈ marks
  · by_cases hdouble : c = '"'
    · subst hdouble
      exact settles_fromHead (settles_kindOf .string (settles_stringTail '"' [] cs)) id
        fun o seen _ => rfl
    by_cases hsingle : c = '\''
    · subst hsingle
      exact settles_fromHead (settles_kindOf .string (settles_stringTail '\'' [] cs)) id
        fun o seen _ => rfl
    by_cases hprivate : c = '#'
    · subst hprivate
      have hname : Settles privateName cs := (settles_takeWhile _ cs).map _ fun o cs => rfl
      exact settles_fromHead hname id fun o seen _ => rfl
    · obtain ⟨kind, hkind⟩ := plain_of_mem_marks hc hdouble hsingle hprivate
      refine Settles.take [c] kind fun o seen _ => ?_
      rw [List.singleton_append, fromHead, hkind]
      simp [Text.byteLength]
  · by_cases hdot : c = '.'
    · exact hdot ▸ settles_plain_dot atEnd afterOperand cs
    · have hother : ∀ o seen, plain afterOperand o c seen =
          if c = '/' ∧ !afterOperand then regExp (o + c.utf8Size) seen
          else if c.isDigit then number c (o + c.utf8Size) seen
          else if Text.isIdentifierStart c then word c (o + c.utf8Size) seen
          else operator o c seen := fun o seen => by
        rw [plain_of_not_mem_marks hc, if_neg (hdot ·.1), if_neg (hdot ·.1)]
      by_cases hslash : c = '/' ∧ !afterOperand
      · exact settles_fromHead (settles_regExp cs) id fun o seen _ => by
          rw [hother, if_pos hslash]; rfl
      by_cases hdigit : c.isDigit
      · exact settles_fromHead (settles_number c cs) id fun o seen _ => by
          rw [hother, if_neg hslash, if_pos hdigit]; rfl
      by_cases hstart : Text.isIdentifierStart c
      · have hword : Settles (word c) cs := (settles_takeWhile _ cs).map _ fun o cs => rfl
        exact settles_fromHead hword id fun o seen _ => by
          rw [hother, if_neg hslash, if_neg hdigit, if_pos hstart]; rfl
      -- an operator takes its first character too, so that it is not read behind one
      · obtain ⟨taken, rest, kind, hcs, ht⟩ := settles_operator atEnd c cs
        refine ⟨taken, rest, kind, hcs, fun o seen hseen => ?_⟩
        rw [← ht o seen hseen]
        cases hall : taken ++ seen with
        | nil => rfl
        | cons d all =>
            have hprefix : d :: all <+: c :: cs :=
              hall ▸ hcs ▸ (List.prefix_append_right_inj taken).2 hseen
            obtain ⟨rfl, -⟩ := List.cons_prefix_cons.1 hprefix
            rw [fromHead, hother, if_neg hslash, if_neg hdigit, if_neg hstart]
            rfl

/-! ## Templates -/

/-- The text of a template goes on over a character that is no backquote and opens nothing. -/
theorem templateText_cons {c : Char} {cs : List Char} (hslash : c ≠ '\\')
    (hdollar : c = '$' → ∀ cs', cs ≠ '\x7b' :: cs') (o : Nat) :
    templateText o (c :: cs) =
      if c = '\x60' then (.closed, ⟨o + 1, cs⟩) else templateText (o + c.utf8Size) cs := by
  rw [templateText.eq_def]
  split <;> simp_all

/-- The text of a template is settled by its characters. -/
theorem settles_templateText (cs : List Char) : Settles templateText cs := by
  suffices h : ∀ o : Nat, Settles templateText cs from h 0
  intro o
  fun_induction templateText o cs with
  | case1 o => exact .stop fun o seen h => by rw [List.prefix_nil.1 h, templateText.eq_def]
  | case2 o =>
      refine Settles.take ['\\'] .unterminated (fun o seen h => ?_ : Takes _ _ [] _)
      rw [List.prefix_nil.1 h]
      rfl
  | case3 o c cs ih =>
      refine ih.append id ['\\', c] fun o seen _ => ?_
      rw [Text.byteLength, Text.byteLength, Text.byteLength, Nat.add_zero, ← Nat.add_assoc]
      rfl
  | case4 o cs =>
      exact Settles.take ['$', '\x7b'] .substitution fun o seen _ => rfl
  | case5 o cs =>
      exact Settles.take ['\x60'] .closed fun o seen _ => rfl
  | case6 o c cs hend hslash hdollar hclose ih =>
      have hc : c ≠ '\\' := by
        rintro rfl
        cases cs with
        | nil => exact hend rfl rfl
        | cons c cs => exact hslash c cs rfl rfl
      refine ih.append id [c] fun o seen hseen => ?_
      rw [List.singleton_append, templateText_cons hc, if_neg hclose]
      · rfl
      · rintro rfl cs' rfl
        obtain ⟨more, rfl⟩ := hseen
        exact hdollar _ rfl rfl

/-- How a template goes on where its text stops. -/
def afterText (outer : List Nat) : TemplateStop → Cursor → Except LexicalFault Unit × Cursor
  | .unterminated, k => (.error .unterminatedTemplate, k)
  | .substitution, k => templateTail (.code 0 false) outer k
  | .closed, k =>
    match outer with
    | [] => (.ok (), k)
    | depth :: outer => templateTail (.code depth true) outer k

/-- How a template goes on behind a token of a substitution. -/
def afterToken (depth : Nat) (outer : List Nat) :
    Kind → Cursor → Except LexicalFault Unit × Cursor
  | .invalid e, k => (.error e, k)
  | .leftBrace, k => templateTail (.code (depth + 1) false) outer k
  | .rightBrace, k =>
    match depth with
    | 0 => templateTail .text outer k
    | depth + 1 => templateTail (.code depth true) outer k
  | kind, k => templateTail (.code depth kind.endsExpression) outer k

/-- How a template goes on in a substitution where no blank is ahead. -/
def atToken (depth : Nat) (afterOperand : Bool) (outer : List Nat) (o : Nat) :
    List Char → Except LexicalFault Unit × Cursor
  | [] => (.error .unterminatedSubstitution, ⟨o, []⟩)
  | c :: cs =>
    if c = '\x60' then templateTail .text (depth :: outer) ⟨o + 1, cs⟩
    else afterToken depth outer (plain afterOperand o c cs).1 (plain afterOperand o c cs).2

/-- A template in its text goes on where the text stops. -/
theorem templateTail_text (outer : List Nat) (k : Cursor) :
    templateTail .text outer k =
      afterText outer (templateText k.offset k.rest).1 (templateText k.offset k.rest).2 := by
  rw [templateTail.eq_def]
  dsimp only
  split <;> rename_i h <;> rw [h]
  · rfl
  · rfl
  · cases outer <;> rfl

/-- A template in a substitution goes on behind the blank there. -/
theorem templateTail_code (depth : Nat) (afterOperand : Bool) (outer : List Nat) (k : Cursor) :
    templateTail (.code depth afterOperand) outer k =
      atToken depth afterOperand outer (skipBlank .outside false k.offset k.rest).2.offset
        (skipBlank .outside false k.offset k.rest).2.rest := by
  rw [templateTail.eq_def]
  dsimp only
  split <;> rename_i h <;> rw [h]
  · rfl
  · rw [atToken]
    split
    · rfl
    · split <;> rename_i h <;> rw [h]
      · rfl
      · rfl
      · cases depth <;> rfl
      · rw [afterToken] <;> assumption

/-- A template in its text is settled if it is so behind the text. -/
theorem settles_text {outer : List Nat} {k k' : Cursor} {stop : TemplateStop}
    (htext : templateText k.offset k.rest = (stop, k'))
    (h : Settles (fun o cs => afterText outer stop ⟨o, cs⟩) k'.rest) :
    Settles (fun o cs => templateTail .text outer ⟨o, cs⟩) k.rest := by
  refine (settles_templateText k.rest).andThen htext h fun o seen k _ hk => ?_
  rw [templateTail_text, hk]

/-- A template in a substitution is settled if it is so behind the blank. -/
theorem settles_code {depth : Nat} {afterOperand : Bool} {outer : List Nat} {k k' : Cursor}
    (hblank : (skipBlank .outside false k.offset k.rest).2 = k')
    (h : Settles (atToken depth afterOperand outer) k'.rest) :
    Settles (fun o cs => templateTail (.code depth afterOperand) outer ⟨o, cs⟩) k.rest := by
  have hskip : skipBlank .outside false k.offset k.rest =
      ((skipBlank .outside false k.offset k.rest).1, k') := by rw [← hblank]
  refine (settles_skipBlank .outside false k.rest).andThen hskip h fun o seen k _ hk => ?_
  rw [templateTail_code, hk]

/-- A template at a token is settled if it is so behind the token. -/
theorem settles_atToken {depth : Nat} {afterOperand : Bool} {outer : List Nat} {o : Nat} {c : Char}
    {cs : List Char} {kind : Kind} {k : Cursor} (hc : c ≠ '\x60')
    (hplain : plain afterOperand o c cs = (kind, k))
    (h : Settles (fun o cs => afterToken depth outer kind ⟨o, cs⟩) k.rest) :
    Settles (atToken depth afterOperand outer) (c :: cs) := by
  refine (settles_plain (.invalid .unterminatedSubstitution) afterOperand c cs).andThen hplain h
    fun o seen k hseen hk => ?_
  cases seen with
  | nil =>
      cases hk
      rfl
  | cons d seen =>
      obtain ⟨rfl, -⟩ := List.cons_prefix_cons.1 hseen
      rw [fromHead] at hk
      rw [atToken, if_neg hc, hk]

/-- A template takes the same characters wherever it stands. The cases are the steps of its
reader. -/
theorem settles_templateTail (place : TemplatePlace) (outer : List Nat) (k : Cursor) :
    Settles (fun o cs => templateTail place outer ⟨o, cs⟩) k.rest := by
  fun_induction templateTail place outer k with
  | case1 outer k k' h => exact settles_text h (.stop fun o seen _ => rfl)
  | case2 outer k k' h ih => exact settles_text h ih
  | case3 k k' h => exact settles_text h (.stop fun o seen _ => rfl)
  | case4 k k' h depth outer ih => exact settles_text h ih
  | case5 outer k depth afterOperand o h =>
      exact settles_code h (.stop fun o seen h => by rw [List.prefix_nil.1 h, atToken])
  | case6 outer k depth afterOperand o cs h ih =>
      refine settles_code h (ih.append id ['\x60'] fun o seen _ => ?_)
      rw [List.singleton_append, atToken, if_pos rfl]
      rfl
  | case7 outer k depth afterOperand o c cs h hc e k' hp =>
      exact settles_code h (settles_atToken hc hp (.stop fun o seen _ => rfl))
  | case8 outer k depth afterOperand o c cs h hc k' hp ih =>
      exact settles_code h (settles_atToken hc hp ih)
  | case9 outer k afterOperand o c cs h hc k' hp ih =>
      exact settles_code h (settles_atToken hc hp ih)
  | case10 outer k afterOperand o c cs h hc k' hp depth ih =>
      exact settles_code h (settles_atToken hc hp ih)
  | case11 outer k depth afterOperand o c cs h hc kind k' hinvalid hleft hright hp ih =>
      refine settles_code h (settles_atToken hc hp ?_)
      simpa only [afterToken] using ih

/-- Every token is settled by its characters. -/
theorem settles_significant (atEnd : Kind) (afterOperand : Bool) (cs : List Char) :
    Settles (fromHead atEnd (significant afterOperand)) cs := by
  cases cs with
  | nil => exact .stop fun o seen h => by rw [List.prefix_nil.1 h, fromHead]
  | cons c cs =>
      by_cases hc : c = '\x60'
      · subst hc
        obtain ⟨taken, rest, r, rfl, ht⟩ := settles_templateTail .text [] ⟨0, cs⟩
        refine ⟨'\x60' :: taken, rest,
          (kindOf (fun _ => .template (String.ofList ('\x60' :: taken))) (r, ⟨0, []⟩)).1, rfl,
          fun o seen hseen => ?_⟩
        have hbytes : o + 1 + Text.byteLength taken = o + Text.byteLength ('\x60' :: taken) := by
          rw [Text.byteLength, ← Nat.add_assoc]
          rfl
        have htail := ht (o + 1) seen hseen
        simp only [hbytes] at htail
        rw [List.cons_append, fromHead, significant, if_pos rfl, template, htail,
          ← List.cons_append]
        simp only [Nat.add_sub_cancel_left, Text.takeBytes_append]
        cases r <;> rfl
      · obtain ⟨taken, rest, kind, hcs, ht⟩ := settles_plain atEnd afterOperand c cs
        refine ⟨taken, rest, kind, hcs, fun o seen hseen => ?_⟩
        rw [← ht o seen hseen]
        cases hall : taken ++ seen with
        | nil => rfl
        | cons d all =>
            have hprefix : d :: all <+: c :: cs :=
              hall ▸ hcs ▸ (List.prefix_append_right_inj taken).2 hseen
            obtain ⟨rfl, -⟩ := List.cons_prefix_cons.1 hprefix
            rw [fromHead, fromHead, significant, if_neg hc]

/-! ## Tokens -/

/-- Moving a token twice moves it by both distances. -/
theorem shift_shift (m n : Nat) (t : Token) : shift m (shift n t) = shift (m + n) t := by
  simp [shift, Span.shift, Nat.add_comm, Nat.add_left_comm]

/-- The next token is the significant one behind the blank. -/
theorem next_eq (afterOperand : Bool) (k : Cursor) :
    next afterOperand k =
      let blank := skipBlank .outside false k.offset k.rest
      let token := fromHead .endOfInput (significant afterOperand) blank.2.offset blank.2.rest
      (⟨token.1, ⟨blank.2.offset, token.2.offset⟩, blank.1⟩, token.2) := by
  unfold next
  split <;> rename_i h <;> simp only [h, fromHead]

/-- The next token of a text is `taken` behind the blank characters `blank`: the token `t`, moved to
where the text stands, however much of `rest` follows. With nothing else the blank ends the
input. -/
structure Spells (afterOperand : Bool) (blank taken rest : List Char) (t : Token) : Prop where
  span : t.span = ⟨Text.byteLength blank, Text.byteLength (blank ++ taken)⟩
  next : ∀ o seen, seen <+: rest →
    next afterOperand ⟨o, blank ++ taken ++ seen⟩ =
      (t.shift o, ⟨o + Text.byteLength (blank ++ taken), seen⟩)
  ends : ∀ o, Token.next afterOperand ⟨o, blank⟩ =
    (⟨.endOfInput, ⟨o + Text.byteLength blank, o + Text.byteLength blank⟩, t.newlineBefore⟩,
      ⟨o + Text.byteLength blank, []⟩)

/-- A text starts with a blank and the characters of its next token. -/
theorem exists_spells (afterOperand : Bool) (cs : List Char) :
    ∃ blank taken rest t, cs = blank ++ taken ++ rest ∧ Spells afterOperand blank taken rest t := by
  obtain ⟨blank, rest, newline, rfl, hblank⟩ := settles_skipBlank .outside false cs
  obtain ⟨taken, rest, kind, rfl, htaken⟩ := settles_significant .endOfInput afterOperand rest
  refine ⟨blank, taken, rest,
    ⟨kind, ⟨Text.byteLength blank, Text.byteLength (blank ++ taken)⟩, newline⟩,
    (List.append_assoc ..).symm, rfl, fun o seen hseen => ?_, fun o => ?_⟩
  · rw [next_eq, List.append_assoc, hblank o _ ((List.prefix_append_right_inj taken).2 hseen)]
    simp only [htaken _ seen hseen, Text.byteLength_append, Nat.add_assoc]
    simp only [shift, Span.shift, Nat.add_comm o]
  · have := hblank o [] List.nil_prefix
    rw [List.append_nil] at this
    rw [next_eq, this]
    rfl

/-- The tokens of a text are the next one and those behind it, up to the end of the input. -/
theorem tokensFrom_of_next {afterOperand : Bool} {k k' : Cursor} {t : Token}
    (h : next afterOperand k = (t, k')) :
    tokensFrom afterOperand k =
      if t.kind = .endOfInput then [t] else t :: tokensFrom t.kind.endsExpression k' := by
  rw [tokensFrom]
  split
  rename_i t' k'' h'
  rw [h] at h'
  cases h'
  split <;> rfl

/-- The last token, and no other, is the end of the input. -/
theorem exists_tokensFrom_eq (afterOperand : Bool) (k : Cursor) :
    ∃ before last, tokensFrom afterOperand k = before ++ [last] ∧ last.kind = .endOfInput ∧
      ∀ t ∈ before, t.kind ≠ .endOfInput := by
  induction afterOperand, k using tokensFrom.induct with
  | case1 afterOperand k t k' hnext hkind =>
      exact ⟨[], t, by rw [tokensFrom_of_next hnext, if_pos hkind]; rfl, hkind, by simp⟩
  | case2 afterOperand k t k' hnext hkind ih =>
      obtain ⟨before, last, htokens, hlast, hbefore⟩ := ih
      refine ⟨t :: before, last, ?_, hlast, List.forall_mem_cons.2 ⟨hkind, hbefore⟩⟩
      rw [tokensFrom_of_next hnext, if_neg hkind, htokens]
      rfl

/-- The text in front of a token has the same tokens by itself, and then the end of the input. -/
theorem tokensFrom_cut {close : Token} {after : List Token} (inner : List Token)
    {afterOperand : Bool} {o : Nat} {cs : List Char}
    (h : tokensFrom afterOperand ⟨o, cs⟩ = inner ++ close :: after) :
    ∃ (taken rest : List Char) (inner₀ : List Token), cs = taken ++ rest ∧
      close.span.start = o + Text.byteLength taken ∧ inner = inner₀.map (shift o) ∧
      ∀ o', tokensFrom afterOperand ⟨o', taken⟩ = inner₀.map (shift o') ++
        [⟨.endOfInput, ⟨o' + Text.byteLength taken, o' + Text.byteLength taken⟩,
          close.newlineBefore⟩] := by
  induction inner generalizing afterOperand o cs with
  | nil =>
      obtain ⟨blank, taken, rest, t, rfl, hs⟩ := exists_spells afterOperand cs
      rw [tokensFrom_of_next (hs.next o rest List.prefix_rfl)] at h
      have hclose : close = t.shift o := by
        split at h <;> exact (List.cons.inj h).1.symm
      refine ⟨blank, taken ++ rest, [], List.append_assoc .., ?_, rfl, fun o' => ?_⟩
      · simp [hclose, hs.span, Span.shift, Nat.add_comm]
      · rw [tokensFrom_of_next (hs.ends o'), if_pos rfl, hclose]
        rfl
  | cons t inner ih =>
      obtain ⟨blank, taken, rest, t', rfl, hs⟩ := exists_spells afterOperand cs
      rw [tokensFrom_of_next (hs.next o rest List.prefix_rfl)] at h
      split at h
      · simp at h
      · next hkind =>
          obtain ⟨rfl, htail⟩ := List.cons.inj h
          obtain ⟨taken', rest, inner₀, rfl, hstart, rfl, htokens⟩ := ih htail
          -- the tokens behind the first one are read from its end, and moved by as much
          have hmap : ∀ n, (inner₀.map (shift (Text.byteLength (blank ++ taken)))).map (shift n) =
              inner₀.map (shift (n + Text.byteLength (blank ++ taken))) := by
            simp [Function.comp_def, shift_shift]
          refine ⟨blank ++ taken ++ taken', rest,
            t' :: inner₀.map (shift (Text.byteLength (blank ++ taken))),
            (List.append_assoc ..).symm, ?_, ?_, fun o' => ?_⟩
          · rw [hstart, Text.byteLength_append (blank ++ taken), Nat.add_assoc]
          · rw [List.map_cons, hmap]
          · rw [shift_kind] at hkind htokens
            rw [tokensFrom_of_next (hs.next o' taken' (List.prefix_append ..)), shift_kind,
              if_neg hkind, htokens, List.map_cons, hmap,
              Text.byteLength_append (blank ++ taken), ← Nat.add_assoc]
            rfl

/-- The tokens behind a token are those of the text behind it. -/
theorem tokensFrom_behind {t : Token} {after : List Token} (before : List Token)
    {afterOperand : Bool} {o : Nat} {cs : List Char} (hkind : t.kind ≠ .endOfInput)
    (h : tokensFrom afterOperand ⟨o, cs⟩ = before ++ t :: after) :
    ∃ taken rest : List Char, cs = taken ++ rest ∧ t.span.stop = o + Text.byteLength taken ∧
      tokensFrom t.kind.endsExpression ⟨t.span.stop, rest⟩ = after := by
  induction before generalizing afterOperand o cs with
  | nil =>
      obtain ⟨blank, taken, rest, t', rfl, hs⟩ := exists_spells afterOperand cs
      rw [tokensFrom_of_next (hs.next o rest List.prefix_rfl)] at h
      split at h
      · next hend =>
          cases h
          exact absurd hend hkind
      · cases h
        have hstop : (shift o t').span.stop = o + Text.byteLength (blank ++ taken) := by
          simp [hs.span, Span.shift, Nat.add_comm]
        exact ⟨blank ++ taken, rest, rfl, hstop, hstop ▸ rfl⟩
  | cons t before ih =>
      obtain ⟨blank, taken, rest, t', rfl, hs⟩ := exists_spells afterOperand cs
      rw [tokensFrom_of_next (hs.next o rest List.prefix_rfl)] at h
      split at h
      · simp at h
      · obtain ⟨taken', rest, rfl, hstop, hafter⟩ := ih (List.cons.inj h).2
        refine ⟨blank ++ taken ++ taken', rest, (List.append_assoc ..).symm, ?_, hafter⟩
        rw [hstop, Text.byteLength_append (blank ++ taken), Nat.add_assoc]

/-! ## The spans of tokens -/

/-- Tokens stand one behind the other, and only the end of the input is empty. -/
structure Ordered (ts : List Token) : Prop where
  apart : ts.Pairwise fun t u => t.span.stop ≤ u.span.start
  le : ∀ t ∈ ts, t.span.start ≤ t.span.stop
  lt : ∀ t ∈ ts, t.kind ≠ .endOfInput → t.span.start < t.span.stop

/-- Some of the tokens in order are in order. -/
theorem Ordered.sublist {ts us : List Token} (h : Ordered us) (hts : ts.Sublist us) :
    Ordered ts where
  apart := h.apart.sublist hts
  le t ht := h.le t (hts.subset ht)
  lt t ht := h.lt t (hts.subset ht)

/-- A token stands behind the place it is read from, and the next one is read behind it. -/
theorem next_span {afterOperand : Bool} {k k' : Cursor} {t : Token}
    (h : next afterOperand k = (t, k')) :
    k.offset ≤ t.span.start ∧ t.span.start ≤ t.span.stop ∧ k'.offset = t.span.stop ∧
      (t.kind ≠ .endOfInput → t.span.start < t.span.stop) := by
  obtain ⟨o, cs⟩ := k
  obtain ⟨blank, taken, rest, t₀, rfl, hs⟩ := exists_spells afterOperand cs
  rw [hs.next o rest List.prefix_rfl] at h
  cases h
  rw [shift_span, hs.span]
  simp only [Span.shift, Text.byteLength_append, shift_kind]
  refine ⟨by omega, by omega, by omega, fun hkind => ?_⟩
  cases taken with
  | nil =>
      -- a token of no characters is the end of the input
      have hnext := hs.next 0 [] List.nil_prefix
      rw [List.append_nil, List.append_nil, hs.ends] at hnext
      have hend := congrArg (fun r => r.1.kind) hnext
      exact absurd hend.symm hkind
  | cons c taken =>
      have := c.utf8Size_pos
      rw [Text.byteLength]
      omega

/-- A literal is not the end of the input. -/
theorem kindOf_ne_endOfInput {f : α → Kind} (hf : ∀ a, f a ≠ .endOfInput)
    (r : Except LexicalFault α × Cursor) : (kindOf f r).1 ≠ .endOfInput := by
  obtain ⟨_ | a, k⟩ := r
  · simp [kindOf]
  · exact hf a

/-- A regular expression is not the end of the input. -/
theorem regExp_ne_endOfInput (o : Nat) (cs : List Char) : (regExp o cs).1 ≠ .endOfInput := by
  unfold regExp
  split <;> simp

/-- A word is not the end of the input. -/
theorem word_ne_endOfInput (c : Char) (o : Nat) (cs : List Char) :
    (word c o cs).1 ≠ .endOfInput := by
  simp only [word, wordKind, Prod.map_fst]
  split <;> simp

/-- An operator is not the end of the input. -/
theorem operator_ne_endOfInput (o : Nat) (c : Char) (cs : List Char) :
    (operator o c cs).1 ≠ .endOfInput := by
  unfold operator
  split
  · simp
  · dsimp only
    split
    · simp
    · split <;> simp

/-- A token that starts with a character is not the end of the input. -/
theorem plain_ne_endOfInput (afterOperand : Bool) (o : Nat) (c : Char) (cs : List Char) :
    (plain afterOperand o c cs).1 ≠ .endOfInput := by
  by_cases hc : c ∈ marks
  · by_cases hdouble : c = '"'
    · subst hdouble
      exact kindOf_ne_endOfInput (by simp) _
    by_cases hsingle : c = '\''
    · subst hsingle
      exact kindOf_ne_endOfInput (by simp) _
    simp only [marks, List.mem_cons, List.not_mem_nil, or_false] at hc
    rcases hc with rfl | rfl | rfl | rfl | rfl | rfl | rfl | rfl | rfl | rfl | rfl | rfl <;>
      first | contradiction | simp [plain, privateName]
    split <;> simp
  · rw [plain_of_not_mem_marks hc]
    split
    · simp [number]
    split
    · simp
    split
    · exact regExp_ne_endOfInput _ _
    split
    · simp [number]
    split
    · exact word_ne_endOfInput _ _ _
    · exact operator_ne_endOfInput _ _ _

/-- No token with characters of its own is the end of the input. -/
theorem significant_ne_endOfInput (afterOperand : Bool) (o : Nat) (c : Char) (cs : List Char) :
    (significant afterOperand o c cs).1 ≠ .endOfInput := by
  unfold significant
  split
  · exact kindOf_ne_endOfInput (by simp) _
  · exact plain_ne_endOfInput _ _ _ _

/-- The end of the input stands behind all characters. -/
theorem next_endOfInput {afterOperand : Bool} {o : Nat} {cs : List Char} {t : Token} {k' : Cursor}
    (h : next afterOperand ⟨o, cs⟩ = (t, k')) (hkind : t.kind = .endOfInput) :
    t.span = ⟨o + Text.byteLength cs, o + Text.byteLength cs⟩ := by
  obtain ⟨blank, rest, newline, rfl, hblank⟩ := settles_skipBlank .outside false cs
  rw [next_eq] at h
  simp only [hblank o rest List.prefix_rfl] at h
  cases rest with
  | nil =>
      cases h
      simp [fromHead]
  | cons c rest =>
      cases h
      exact absurd hkind (significant_ne_endOfInput _ _ _ _)

/-- The end of the input stands behind all characters. -/
theorem span_of_endOfInput {afterOperand : Bool} {k : Cursor} {t : Token}
    (ht : t ∈ tokensFrom afterOperand k) (hkind : t.kind = .endOfInput) :
    t.span = ⟨k.offset + Text.byteLength k.rest, k.offset + Text.byteLength k.rest⟩ := by
  induction afterOperand, k using tokensFrom.induct with
  | case1 afterOperand k u k' hnext hu =>
      rw [tokensFrom_of_next hnext, if_pos hu] at ht
      obtain rfl := List.mem_singleton.1 ht
      exact next_endOfInput hnext hu
  | case2 afterOperand k u k' hnext hu ih =>
      rw [tokensFrom_of_next hnext, if_neg hu] at ht
      obtain rfl | ht := List.mem_cons.1 ht
      · exact absurd hkind hu
      · rw [ih ht]
        obtain ⟨o, cs⟩ := k
        obtain ⟨blank, taken, rest, t₀, rfl, hs⟩ := exists_spells afterOperand cs
        rw [hs.next o rest List.prefix_rfl] at hnext
        cases hnext
        simp only [Text.byteLength_append, Nat.add_assoc]

/-- The tokens of a text are in order, and none starts before it. -/
theorem ordered_tokensFrom (afterOperand : Bool) (k : Cursor) :
    Ordered (tokensFrom afterOperand k) ∧
      ∀ t ∈ tokensFrom afterOperand k, k.offset ≤ t.span.start := by
  induction afterOperand, k using tokensFrom.induct with
  | case1 afterOperand k t k' hnext hkind =>
      obtain ⟨hstart, hle, -, hlt⟩ := next_span hnext
      rw [tokensFrom_of_next hnext, if_pos hkind]
      exact ⟨⟨List.pairwise_singleton .., by simpa using hle, by simpa using hlt⟩,
        by simpa using hstart⟩
  | case2 afterOperand k t k' hnext hkind ih =>
      obtain ⟨hstart, hle, hstop, hlt⟩ := next_span hnext
      obtain ⟨hordered, hbehind⟩ := ih
      rw [tokensFrom_of_next hnext, if_neg hkind]
      rw [hstop] at hbehind
      refine ⟨⟨List.pairwise_cons.2 ⟨hbehind, hordered.apart⟩,
        List.forall_mem_cons.2 ⟨hle, hordered.le⟩, List.forall_mem_cons.2 ⟨hlt, hordered.lt⟩⟩,
        List.forall_mem_cons.2 ⟨hstart, fun u hu => ?_⟩⟩
      have := hbehind u hu
      omega

end Token

end ModuleGraph
