import Mathlib.Data.List.Find
import ModuleGraph.Proofs.Scanning

/-!
# Text behind a line break

What the scanner reads of a text it also reads where a line ends behind the text and more follows
(`Token.Unaffected`). The exceptions are what the end of the text cuts short: strings, templates and
regular expressions that are not closed, which are invalid tokens, and block comments.
-/

namespace ModuleGraph

/-- The place where more text follows. -/
def Cursor.before (k : Cursor) (more : List Char) : Cursor :=
  ⟨k.offset, k.rest ++ more⟩

namespace Token

variable {α β : Type} {f : Nat → List Char → α × Cursor} {o o' : Nat} {cs cs' : List Char}

/-- The scanner `f` reads the same from a text where a line ends behind it. -/
def Unaffected (f : Nat → List Char → α × Cursor) (o : Nat) (cs : List Char) : Prop :=
  ∀ more, f o (cs ++ '\n' :: more) = ((f o cs).1, (f o cs).2.before ('\n' :: more))

/-- Text is left, or what was read is no fault. -/
def Kept {α : Type} (r : Except LexicalFault α × Cursor) : Prop :=
  r.2.rest ≠ [] ∨ ∃ a, r.1 = .ok a

namespace Unaffected

/-- What goes on reading is not affected if what it goes on with is not. -/
theorem step {g : Nat → List Char → β × Cursor} (φ : β → α) (h : Unaffected g o' cs')
    (hf : f o cs = (g o' cs').map φ id)
    (hf' : ∀ more, f o (cs ++ '\n' :: more) = (g o' (cs' ++ '\n' :: more)).map φ id) :
    Unaffected f o cs := by
  intro more
  rw [hf', hf, h more]
  rfl

/-- What stops at once is not affected by what follows. -/
theorem stop {a : α} {k : Cursor} (hf : f o cs = (a, k))
    (hf' : ∀ more, f o (cs ++ '\n' :: more) = (a, k.before ('\n' :: more))) :
    Unaffected f o cs := by
  intro more
  rw [hf', hf]

end Unaffected

/-! ## Words, numbers and escapes -/

/-- Taking characters of which a line end is none is not affected. -/
theorem unaffected_takeWhile {p : Char → Bool} (hp : p '\n' = false) (o : Nat) (cs : List Char) :
    Unaffected (takeWhile p) o cs := by
  induction cs generalizing o with
  | nil => exact .stop rfl fun more => by rw [List.nil_append, takeWhile, hp]; rfl
  | cons c cs ih =>
      by_cases hc : p c = true
      · exact (ih (o + c.utf8Size)).step (c :: ·) (by rw [takeWhile, if_pos hc])
          fun more => by rw [List.cons_append, takeWhile, if_pos hc]
      · exact .stop (by rw [takeWhile, if_neg hc])
          fun more => by rw [List.cons_append, takeWhile, if_neg hc]; rfl

/-- The rest of a number is not affected. -/
theorem unaffected_numberTail (hexadecimal : Bool) (last : Char) (o : Nat) (cs : List Char) :
    Unaffected (numberTail hexadecimal last) o cs := by
  induction cs generalizing last o with
  | nil => exact .stop rfl fun more => rfl
  | cons c cs ih =>
      by_cases hc : (c.isAlphanum || c == '_' || c == '.'
        || ((c == '+' || c == '-') && (last == 'e' || last == 'E') && !hexadecimal)) = true
      · exact (ih c (o + c.utf8Size)).step (c :: ·) (by rw [numberTail, if_pos hc])
          fun more => by rw [List.cons_append, numberTail, if_pos hc]
      · exact .stop (by rw [numberTail, if_neg hc])
          fun more => by rw [List.cons_append, numberTail, if_neg hc]; rfl

/-- Whether a number is hexadecimal is not affected. -/
theorem isHexadecimal_append (c : Char) (cs more : List Char) :
    isHexadecimal c (cs ++ '\n' :: more) = isHexadecimal c cs := by
  cases cs with
  | nil => simp [isHexadecimal]
  | cons d cs => rfl

/-- A number is not affected. -/
theorem unaffected_number (c : Char) (o : Nat) (cs : List Char) : Unaffected (number c) o cs :=
  (unaffected_numberTail _ _ o cs).step _ rfl fun more => by rw [number, isHexadecimal_append]

/-- A word is not affected. -/
theorem unaffected_word (c : Char) (o : Nat) (cs : List Char) : Unaffected (word c) o cs :=
  (unaffected_takeWhile (by decide) o cs).step _ rfl fun _ => rfl

/-- A private name is not affected. -/
theorem unaffected_privateName (o : Nat) (cs : List Char) : Unaffected privateName o cs :=
  (unaffected_takeWhile (by decide) o cs).step _ rfl fun _ => rfl

/-- The digits of an escape are not affected. -/
theorem unaffected_hexCode (n code o : Nat) (cs : List Char) :
    Unaffected (hexCode n code) o cs := by
  induction n generalizing code o cs with
  | zero => exact .stop rfl fun more => rfl
  | succ n ih =>
      cases cs with
      | nil => exact .stop rfl fun more => rfl
      | cons c cs =>
          cases hd : hexDigit? c with
          | none =>
              exact .stop (by rw [hexCode, hd]) fun more => by
                rw [List.cons_append, hexCode, hd]; rfl
          | some d =>
              intro more
              have htail := ih (code * 16 + d) (o + c.utf8Size) cs more
              simpa only [List.cons_append, hexCode, hd] using htail

/-- The digits between braces are not affected if they end before the text does. -/
theorem unaffected_bracedCode {code o : Nat} {cs : List Char}
    (h : (bracedCode code o cs).2.rest ≠ []) : Unaffected (bracedCode code) o cs := by
  induction cs generalizing code o with
  | nil => exact absurd rfl h
  | cons c cs ih =>
      cases hd : hexDigit? c with
      | none =>
          exact .stop (by rw [bracedCode, hd]) fun more => by
            rw [List.cons_append, bracedCode, hd]; rfl
      | some d =>
          rw [bracedCode, hd] at h
          intro more
          have htail := ih h more
          simpa only [List.cons_append, bracedCode, hd] using htail

/-- An escape is not affected if it ends before the text does. -/
theorem unaffected_escape {o : Nat} {cs : List Char} (h : (escape o cs).2.rest ≠ []) :
    Unaffected escape o cs := by
  fun_cases escape o cs with
  | case1 => exact absurd rfl h
  | case2 o cs =>
      exact (unaffected_hexCode 2 0 (o + 1) cs).step (fun code => [charOfCode code]) rfl
        fun _ => rfl
  | case3 o cs =>
      exact (unaffected_bracedCode h).step (fun code => [charOfCode code]) rfl fun _ => rfl
  | case4 o cs hbrace =>
      refine (unaffected_hexCode 4 0 (o + 1) cs).step (fun code => [charOfCode code])
        (escape_unicode (fun cs' hcs => hbrace cs' hcs) o) fun more => ?_
      rw [List.cons_append, escape_unicode]
      intro cs' hcs
      cases cs with
      | nil => cases hcs
      | cons d cs =>
          obtain ⟨rfl, -⟩ := List.cons.inj hcs
          exact hbrace cs rfl
  | case5 o cs => exact .stop rfl fun more => rfl
  | case6 o c cs hx hbrace hu hr =>
      have hread : escape o (c :: cs) = ((escape 0 [c]).1, ⟨o + c.utf8Size, cs⟩) :=
        escape_single hx hu (fun hc cs' hcs => hr cs' hc hcs) o
      refine .stop hread fun more => ?_
      rw [List.cons_append, escape_single hx hu]
      · rfl
      · rintro rfl cs' hcs
        cases cs with
        | nil => exact h (congrArg (·.2.rest) hread)
        | cons d cs =>
            obtain ⟨rfl, -⟩ := List.cons.inj hcs
            exact hr cs rfl rfl

/-! ## Strings and regular expressions -/

/-- A string that the text ends in is faulty. -/
theorem not_kept_stringTail (quote : Char) (value : List Char) (o : Nat) :
    ¬Kept (stringTail quote value o []) := by
  simp [Kept, stringTail]

/-- A string is not affected, unless the text ends in it. -/
theorem unaffected_stringTail {quote : Char} {value : List Char} {o : Nat} {cs : List Char}
    (h : Kept (stringTail quote value o cs)) : Unaffected (stringTail quote value) o cs := by
  fun_induction stringTail quote value o cs with
  | case1 value o => exact absurd h (by simp [Kept])
  | case2 value o cs =>
      exact .stop (by rw [stringTail, if_pos rfl]) fun more => by
        rw [List.cons_append, stringTail, if_pos rfl]; rfl
  | case3 value o cs hline =>
      exact .stop (by rw [stringTail, if_neg hline, if_pos rfl]) fun more => by
        rw [List.cons_append, stringTail, if_neg hline, if_pos rfl]; rfl
  | case4 value o cs r hline hclose ih =>
      have hrest : (escape (o + 1) cs).2.rest ≠ [] := by
        intro hnil
        have hkept : Kept (stringTail quote (r.1.reverse ++ value) r.2.offset r.2.rest) := h
        rw [show r.2.rest = [] from hnil] at hkept
        exact not_kept_stringTail _ _ _ hkept
      intro more
      have hescape := unaffected_escape hrest more
      have htail := ih h more
      rw [List.cons_append, stringTail, if_neg hline, if_neg hclose, if_pos rfl, hescape]
      rw [stringTail, if_neg hline, if_neg hclose, if_pos rfl]
      exact htail
  | case5 value o c cs hline hclose hslash ih =>
      intro more
      have htail := ih h more
      simpa only [List.cons_append, stringTail, if_neg hline, if_neg hclose, if_neg hslash]
        using htail

/-- What is mapped was kept before. -/
theorem kept_map {f : List Char → List Char} {r : Except LexicalFault (List Char) × Cursor}
    (h : Kept (r.map (Except.map f) id)) : Kept r := by
  refine h.imp id fun ⟨a, ha⟩ => ?_
  obtain ⟨e | b, k⟩ := r
  · cases ha
  · exact ⟨b, rfl⟩

/-- A pattern is not affected, unless the text ends in it. -/
theorem unaffected_patternTail {inClass : Bool} {o : Nat} {cs : List Char}
    (h : Kept (patternTail inClass o cs)) : Unaffected (patternTail inClass) o cs := by
  fun_induction patternTail inClass o cs with
  | case1 => exact absurd h (by simp [Kept])
  | case2 => exact absurd h (by simp [Kept])
  | case3 inClass o c cs ih =>
      exact (ih (kept_map h)).step (Except.map ('\\' :: c :: ·)) rfl fun _ => rfl
  | case4 inClass o c cs hend hslash hline =>
      have hc : c ≠ '\\' := by rintro rfl; revert hline; decide
      exact .stop (by rw [patternTail_cons hc, if_pos hline]) fun more => by
        rw [List.cons_append, patternTail_cons hc, if_pos hline]; rfl
  | case5 inClass o c cs hend hslash hline hclose =>
      obtain ⟨rfl, hclass⟩ := hclose
      exact .stop (by rw [patternTail_cons (by decide), if_neg hline, if_pos ⟨rfl, hclass⟩])
        fun more => by
          rw [List.cons_append, patternTail_cons (by decide), if_neg hline, if_pos ⟨rfl, hclass⟩]
          rfl
  | case6 inClass o c cs hend hslash hline hclose inClass' ih =>
      have hc : c ≠ '\\' := by
        rintro rfl
        cases cs with
        | nil => exact hend rfl rfl
        | cons c cs => exact hslash c cs rfl rfl
      refine (ih (kept_map h)).step (Except.map (c :: ·)) ?_ fun more => ?_
      · rw [patternTail_cons hc, if_neg hline, if_neg hclose]
      · rw [List.cons_append, patternTail_cons hc, if_neg hline, if_neg hclose]

/-- Text is left, or the token is valid. -/
def KeptToken (r : Kind × Cursor) : Prop :=
  r.2.rest ≠ [] ∨ ∀ fault, r.1 ≠ .invalid fault

/-- What a token is read from is kept if the token is. -/
theorem kept_of_kindOf {g : β → Kind} {r : Except LexicalFault β × Cursor}
    (h : KeptToken (kindOf g r)) : Kept r := by
  rw [KeptToken, kindOf_rest] at h
  refine h.imp id fun hvalid => ?_
  obtain ⟨e | b, k⟩ := r
  · exact absurd rfl (hvalid e)
  · exact ⟨b, rfl⟩

/-- A literal is not affected if what it is read from is not. -/
theorem unaffected_kindOf {read : Nat → List Char → Except LexicalFault β × Cursor} {g : β → Kind}
    (hread : Kept (read o cs) → Unaffected read o cs) (h : KeptToken (kindOf g (read o cs))) :
    Unaffected (fun o cs => kindOf g (read o cs)) o cs := by
  intro more
  dsimp only
  rw [hread (kept_of_kindOf h) more]
  rcases read o cs with ⟨_ | _, _⟩ <;> rfl

/-- A regular expression is its pattern, if that is closed, with its flags. -/
theorem regExp_eq (o : Nat) (cs : List Char) : regExp o cs =
    match (patternTail false o cs).1 with
    | .ok pattern => (takeWhile Text.isIdentifierContinue (patternTail false o cs).2.offset
        (patternTail false o cs).2.rest).map
          (fun flags => .regExp (String.ofList pattern) (String.ofList flags)) id
    | .error e => (.invalid e, (patternTail false o cs).2) := by
  rw [regExp]
  rcases patternTail false o cs with ⟨_ | _, _⟩ <;> rfl

/-- A regular expression is not affected, unless the text ends in it. -/
theorem unaffected_regExp (h : KeptToken (regExp o cs)) : Unaffected regExp o cs := by
  intro more
  have hpattern : Kept (patternTail false o cs) → _ := fun hkept =>
    unaffected_patternTail hkept more
  rw [regExp_eq o cs] at h
  rw [regExp_eq o (cs ++ '\n' :: more), regExp_eq o cs]
  cases hread : patternTail false o cs with
  | mk r k =>
      rw [hread] at h hpattern
      cases r with
      | error e =>
          have hrest : k.rest ≠ [] := h.resolve_right fun hvalid => hvalid e rfl
          rw [hpattern (.inl hrest)]
      | ok pattern =>
          rw [hpattern (.inr ⟨pattern, rfl⟩)]
          have hflags := unaffected_takeWhile (p := Text.isIdentifierContinue) (by decide) k.offset
            k.rest more
          dsimp only [Cursor.before] at hflags ⊢
          rw [hflags]
          rfl

/-! ## Operators -/

/-- No operator goes on behind a line break. -/
theorem isPrefixOf_append (op cs more : List Char) (hop : '\n' ∉ op) :
    op.isPrefixOf (cs ++ '\n' :: more) = op.isPrefixOf cs := by
  induction op generalizing cs with
  | nil => simp
  | cons c op ih =>
      rw [List.mem_cons, not_or] at hop
      cases cs with
      | nil => simp [List.isPrefixOf, Ne.symm hop.1]
      | cons d cs => simp [List.isPrefixOf, ih cs hop.2]

/-- No operator has a line end in it. -/
theorem newline_not_mem_operator : ∀ op ∈ operators, '\n' ∉ op.toList := by
  decide

/-- An operator is not affected. -/
theorem unaffected_operator (o : Nat) (c : Char) (cs : List Char) :
    Unaffected (fun o cs => operator o c cs) o cs := by
  intro more
  have hfind : (operators.find? fun op => op.toList.isPrefixOf (c :: (cs ++ '\n' :: more))) =
      operators.find? fun op => op.toList.isPrefixOf (c :: cs) := by
    refine List.find?_congr fun op hop => ?_
    rw [← List.cons_append]
    exact isPrefixOf_append _ _ _ (newline_not_mem_operator op hop)
  dsimp only
  rw [operator, hfind, operator]
  cases hop : operators.find? fun op => op.toList.isPrefixOf (c :: cs) with
  | none => rfl
  | some op =>
      obtain ⟨-, hlength, -⟩ := byteLength_operator op (List.mem_of_find?_eq_some hop)
      have hfound := List.find?_some hop
      have hprefix : op.toList <+: c :: cs := List.isPrefixOf_iff_prefix.1 hfound
      have hle : op.length - 1 ≤ cs.length := by
        have := hprefix.length_le
        rw [List.length_cons] at this
        omega
      dsimp only
      rw [List.drop_append_of_le_length hle]
      split
      · rfl
      · split <;> rfl

/-! ## Single tokens -/

/-- A token that starts with no mark is not affected, unless the text ends in it. -/
theorem unaffected_plain_of_not_mem_marks {afterOperand : Bool} {c : Char} (hc : c ∉ marks)
    (h : KeptToken (plain afterOperand o c cs)) :
    Unaffected (fun o cs => plain afterOperand o c cs) o cs := by
  have hplain := plain_of_not_mem_marks hc afterOperand
  have hdigit : ∀ more,
      (cs ++ '\n' :: more).head?.any Char.isDigit = cs.head?.any Char.isDigit := by
    intro more
    cases cs <;> rfl
  have hdots : ∀ more, (cs ++ '\n' :: more).take 2 = ['.', '.'] ↔ cs.take 2 = ['.', '.'] := by
    intro more
    rcases cs with _ | ⟨d, _ | ⟨d', cs⟩⟩ <;> simp
  intro more
  dsimp only
  rw [hplain] at h
  rw [hplain, hplain, hdigit]
  simp only [ne_eq, hdots]
  by_cases hpoint : c = '.' ∧ (cs.head?.any Char.isDigit) = true
  · simp only [if_pos hpoint]
    exact unaffected_number c _ cs more
  simp only [if_neg hpoint] at h ⊢
  by_cases hdot : c = '.' ∧ ¬cs.take 2 = ['.', '.']
  · simp only [if_pos hdot]
    rfl
  simp only [ne_eq, if_neg hdot] at h ⊢
  by_cases hslash : c = '/' ∧ (!afterOperand) = true
  · simp only [if_pos hslash] at h ⊢
    exact unaffected_regExp h more
  simp only [if_neg hslash] at h ⊢
  by_cases hnumber : c.isDigit = true
  · simp only [if_pos hnumber]
    exact unaffected_number c _ cs more
  simp only [if_neg hnumber] at h ⊢
  by_cases hword : Text.isIdentifierStart c = true
  · simp only [if_pos hword]
    exact unaffected_word c _ cs more
  simp only [if_neg hword]
  exact unaffected_operator o c cs more

/-- A token that is no template is not affected, unless the text ends in it. -/
theorem unaffected_plain {afterOperand : Bool} {c : Char}
    (h : KeptToken (plain afterOperand o c cs)) :
    Unaffected (fun o cs => plain afterOperand o c cs) o cs := by
  by_cases hc : c ∈ marks
  · by_cases hdouble : c = '"'
    · subst hdouble
      intro more
      exact unaffected_kindOf (g := .string) unaffected_stringTail h more
    by_cases hsingle : c = '\''
    · subst hsingle
      intro more
      exact unaffected_kindOf (g := .string) unaffected_stringTail h more
    by_cases hprivate : c = '#'
    · subst hprivate
      intro more
      exact unaffected_privateName _ cs more
    · obtain ⟨kind, hkind⟩ := plain_of_mem_marks hc hdouble hsingle hprivate
      intro more
      dsimp only
      rw [hkind, hkind]
      rfl
  · exact unaffected_plain_of_not_mem_marks hc h

/-! ## Blanks -/

/-- A blank is not affected if it ends before the text does. -/
theorem unaffected_skipBlank {p : BlankPlace} {newline : Bool} {o : Nat} {cs : List Char}
    (h : (skipBlank p newline o cs).2.rest ≠ []) : Unaffected (skipBlank p newline) o cs := by
  fun_induction skipBlank p newline o cs with
  | case1 => exact absurd rfl h
  | case2 newline o cs ih => exact (ih h).step id rfl fun more => rfl
  | case3 newline o cs ih => exact (ih h).step id rfl fun more => rfl
  | case4 newline o c cs hline hblock hblank ih =>
      have hc := ne_slash_of_isBlank hblank
      refine (ih h).step id ?_ fun more => ?_
      · rw [skipBlank_outside (absurd · hc), if_pos hblank]; rfl
      · rw [List.cons_append, skipBlank_outside (absurd · hc), if_pos hblank]; rfl
  | case5 newline o c cs hline hblock hblank =>
      -- the blank ends in front of `c`, whatever follows
      have hread : ∀ cs', (c = '/' → ∀ cs'', cs' ≠ '/' :: cs'' ∧ cs' ≠ '*' :: cs'') →
          skipBlank .outside newline o (c :: cs') = (newline, ⟨o, c :: cs'⟩) := by
        intro cs' hc
        rw [skipBlank_outside hc, if_neg hblank]
      refine .stop (hread cs fun hc cs' => ⟨hline cs' hc, hblock cs' hc⟩) fun more => ?_
      rw [List.cons_append, hread]
      · rfl
      · -- a slash that starts no comment starts none in front of a line break
        rintro rfl cs'
        cases cs with
        | nil => simp
        | cons d cs =>
            constructor
            · intro hcs
              obtain ⟨rfl, -⟩ := List.cons.inj hcs
              exact hline cs rfl rfl
            · intro hcs
              obtain ⟨rfl, -⟩ := List.cons.inj hcs
              exact hblock cs rfl rfl
  | case6 newline o c cs hc ih =>
      refine (ih h).step id ?_ fun more => ?_
      · rw [skipBlank_line, if_pos hc]; rfl
      · rw [List.cons_append, skipBlank_line, if_pos hc]; rfl
  | case7 newline o c cs hc ih =>
      refine (ih h).step id ?_ fun more => ?_
      · rw [skipBlank_line, if_neg hc]; rfl
      · rw [List.cons_append, skipBlank_line, if_neg hc]; rfl
  | case8 afterStar newline o c cs hc ih =>
      refine (ih h).step id ?_ fun more => ?_
      · rw [skipBlank_block, if_pos hc]; rfl
      · rw [List.cons_append, skipBlank_block, if_pos hc]; rfl
  | case9 afterStar newline o c cs hc ih =>
      refine (ih h).step id ?_ fun more => ?_
      · rw [skipBlank_block, if_neg hc]; rfl
      · rw [List.cons_append, skipBlank_block, if_neg hc]; rfl

/-! ## Templates -/

/-- The text of a template is not affected if it ends before the source does. -/
theorem unaffected_templateText (h : (templateText o cs).1 ≠ .unterminated) :
    Unaffected templateText o cs := by
  fun_induction templateText o cs with
  | case1 => exact absurd rfl h
  | case2 => exact absurd rfl h
  | case3 o c cs ih => exact (ih h).step id rfl fun more => rfl
  | case4 o cs => exact .stop rfl fun more => rfl
  | case5 o cs => exact .stop rfl fun more => rfl
  | case6 o c cs hend hslash hdollar hclose ih =>
      have hc : c ≠ '\\' := by
        rintro rfl
        cases cs with
        | nil => exact hend rfl rfl
        | cons c cs => exact hslash c cs rfl rfl
      refine (ih h).step id ?_ fun more => ?_
      · rw [templateText_cons hc fun hd cs' hcs => hdollar cs' hd hcs, if_neg hclose]; rfl
      · rw [List.cons_append, templateText_cons hc, if_neg hclose]
        · rfl
        · rintro rfl cs' hcs
          cases cs with
          | nil => cases hcs
          | cons d cs =>
              obtain ⟨rfl, -⟩ := List.cons.inj hcs
              exact hdollar cs rfl rfl

/-- The text of a template is unterminated only where the source ends. -/
theorem rest_of_unterminated {k : Cursor} (h : templateText o cs = (.unterminated, k)) :
    k.rest = [] := by
  fun_induction templateText o cs with
  | case1 => cases h; rfl
  | case2 => cases h; rfl
  | case3 o c cs ih => exact ih h
  | case4 => cases h
  | case5 => cases h
  | case6 o c cs _ _ _ _ ih => exact ih h

/-- A template is not affected in its text if it is not behind it. -/
theorem unaffected_text {outer : List Nat} {k k' : Cursor} {stop : TemplateStop}
    (htext : templateText k.offset k.rest = (stop, k')) (hstop : stop ≠ .unterminated)
    (h : Unaffected (fun o cs => afterText outer stop ⟨o, cs⟩) k'.offset k'.rest) :
    Unaffected (fun o cs => templateTail .text outer ⟨o, cs⟩) k.offset k.rest := by
  intro more
  have hread := unaffected_templateText (by rw [htext]; exact hstop) more
  rw [htext] at hread
  dsimp only
  rw [templateTail_text, templateTail_text, hread, htext]
  exact h more

/-- A template is not affected in a blank if it is not behind it. -/
theorem unaffected_code {depth : Nat} {afterOperand : Bool} {outer : List Nat} {k k' : Cursor}
    (hblank : (skipBlank .outside false k.offset k.rest).2 = k') (hrest : k'.rest ≠ [])
    (h : Unaffected (atToken depth afterOperand outer) k'.offset k'.rest) :
    Unaffected (fun o cs => templateTail (.code depth afterOperand) outer ⟨o, cs⟩) k.offset
      k.rest := by
  intro more
  have hread := unaffected_skipBlank (hblank ▸ hrest) more
  rw [hblank] at hread
  dsimp only
  rw [templateTail_code, templateTail_code, hread, hblank]
  exact h more

/-- A template is not affected at a token if it is not behind it. -/
theorem unaffected_atToken {depth : Nat} {afterOperand : Bool} {outer : List Nat} {c : Char}
    {kind : Kind} {k : Cursor} (hc : c ≠ '\x60') (hplain : plain afterOperand o c cs = (kind, k))
    (hkept : KeptToken (kind, k))
    (h : Unaffected (fun o cs => afterToken depth outer kind ⟨o, cs⟩) k.offset k.rest) :
    Unaffected (atToken depth afterOperand outer) o (c :: cs) := by
  intro more
  have hread := unaffected_plain (hplain ▸ hkept) more
  dsimp only at hread
  rw [hplain] at hread
  rw [List.cons_append, atToken, if_neg hc, atToken, if_neg hc, hread, hplain]
  exact h more

/-- A template that is closed is not affected by what stands behind it. The cases are the steps of
its reader. -/
theorem unaffected_templateTail {place : TemplatePlace} {outer : List Nat} {k : Cursor}
    (h : Kept (templateTail place outer k)) :
    Unaffected (fun o cs => templateTail place outer ⟨o, cs⟩) k.offset k.rest := by
  fun_induction templateTail place outer k with
  | case1 outer k k' htext => exact absurd h (by simp [Kept, rest_of_unterminated htext])
  | case2 outer k k' htext ih => exact unaffected_text htext (by simp) (ih h)
  | case3 k k' htext => exact unaffected_text htext (by simp) fun more => rfl
  | case4 k k' htext depth outer ih => exact unaffected_text htext (by simp) (ih h)
  | case5 outer k depth afterOperand o hblank => exact absurd h (by simp [Kept])
  | case6 outer k depth afterOperand o cs hblank ih =>
      refine unaffected_code hblank (by simp) fun more => ?_
      rw [List.cons_append, atToken, if_pos rfl, atToken, if_pos rfl]
      exact ih h more
  | case7 outer k depth afterOperand o c cs hblank hc e k' hp =>
      have hrest : k'.rest ≠ [] := h.resolve_right (by simp)
      exact unaffected_code hblank (by simp)
        (unaffected_atToken hc hp (.inl hrest) fun more => rfl)
  | case8 outer k depth afterOperand o c cs hblank hc k' hp ih =>
      exact unaffected_code hblank (by simp) (unaffected_atToken hc hp (.inr (by simp)) (ih h))
  | case9 outer k afterOperand o c cs hblank hc k' hp ih =>
      exact unaffected_code hblank (by simp) (unaffected_atToken hc hp (.inr (by simp)) (ih h))
  | case10 outer k afterOperand o c cs hblank hc k' hp depth ih =>
      exact unaffected_code hblank (by simp) (unaffected_atToken hc hp (.inr (by simp)) (ih h))
  | case11 outer k depth afterOperand o c cs hblank hc kind k' hinvalid hleft hright hp ih =>
      refine unaffected_code hblank (by simp) (unaffected_atToken hc hp (.inr hinvalid) ?_)
      simpa only [afterToken] using ih h

/-! ## Tokens -/

/-- A template is not affected, unless the text ends in it. -/
theorem unaffected_template (h : KeptToken (template ('\x60' :: cs) o cs)) :
    Unaffected (fun o cs => template ('\x60' :: cs) o cs) o cs := by
  have hkept : Kept (templateTail .text [] ⟨o + 1, cs⟩) := kept_of_kindOf h
  obtain ⟨taken, rest, r, rfl, ht⟩ := settles_templateTail .text [] ⟨0, cs⟩
  intro more
  have htail := unaffected_templateTail hkept more
  have hread : templateTail .text [] ⟨o + 1, taken ++ rest⟩ = _ := ht (o + 1) rest List.prefix_rfl
  -- the text of the template ends within the text
  have hlength : o + 1 + Text.byteLength taken - o = Text.byteLength ('\x60' :: taken) := by
    rw [Text.byteLength, show '\x60'.utf8Size = 1 from rfl]
    omega
  dsimp only at htail ⊢
  rw [template, template, htail, hread]
  dsimp only [Cursor.before]
  rw [hlength, List.append_assoc, ← List.cons_append, ← List.cons_append, Text.takeBytes_append,
    Text.takeBytes_append]
  cases r <;> rfl

/-- No token is affected, unless the text ends in it and it is faulty. -/
theorem unaffected_significant {afterOperand : Bool} {c : Char}
    (h : KeptToken (significant afterOperand o c cs)) :
    Unaffected (fun o cs => significant afterOperand o c cs) o cs := by
  by_cases hc : c = '\x60'
  · subst hc
    exact unaffected_template h
  · rw [significant, if_neg hc] at h
    intro more
    dsimp only
    rw [significant, if_neg hc, significant, if_neg hc]
    exact unaffected_plain h more

/-- The next token of a text is not affected by what stands behind it, unless the text ends in it
and it is not valid. -/
theorem unaffected_next {afterOperand : Bool} {k : Cursor} {t : Token}
    (h : next afterOperand ⟨o, cs⟩ = (t, k)) (hkind : t.kind ≠ .endOfInput)
    (hkept : KeptToken (t.kind, k)) :
    Unaffected (fun o cs => next afterOperand ⟨o, cs⟩) o cs := by
  intro more
  dsimp only
  rw [next_eq] at h
  cases hblank : skipBlank .outside false o cs with
  | mk newline k₁ =>
      obtain ⟨o₁, cs₁⟩ := k₁
      simp only [hblank] at h
      cases cs₁ with
      | nil =>
          cases h
          exact absurd rfl hkind
      | cons c cs₁ =>
          have hrest : (skipBlank .outside false o cs).2.rest ≠ [] := by simp [hblank]
          have hread := unaffected_skipBlank hrest more
          rw [hblank] at hread
          cases h
          have htoken : significant afterOperand o₁ c (cs₁ ++ '\n' :: more) = _ :=
            unaffected_significant hkept more
          rw [next_eq, next_eq]
          simp only [hread, hblank, Cursor.before, List.cons_append, fromHead, htoken]

/-! ## The text behind the last token -/

/-- Whether a blank text ends within a comment that is still to be closed. -/
def endsInBlock : BlankPlace → List Char → Bool
  | .block _, [] => true
  | _, [] => false
  | .outside, '/' :: '/' :: cs => endsInBlock .line cs
  | .outside, '/' :: '*' :: cs => endsInBlock (.block false) cs
  | .outside, _ :: cs => endsInBlock .outside cs
  | .line, c :: cs => if c = '\n' ∨ c = '\r' then endsInBlock .outside cs else endsInBlock .line cs
  | .block afterStar, c :: cs =>
    if afterStar ∧ c = '/' then endsInBlock .outside cs else endsInBlock (.block (c = '*')) cs

/-- Only a slash can open a comment. -/
theorem endsInBlock_outside {c : Char} (hc : c ≠ '/') (cs : List Char) :
    endsInBlock .outside (c :: cs) = endsInBlock .outside cs := by
  rw [endsInBlock]
  · rintro cs' rfl
    exact absurd rfl hc
  · rintro cs' rfl
    exact absurd rfl hc

/-- A blank text that ends outside of a comment, or in one that the line ends, is skipped together
with the line break behind it. -/
theorem skipBlank_lineBreak {p : BlankPlace} {newline : Bool} {o : Nat} {cs : List Char}
    (h : (skipBlank p newline o cs).2.rest = []) (hblock : endsInBlock p cs = false) {c : Char}
    (hc : Text.isBlank c = false) (hslash : c ≠ '/') (more : List Char) :
    skipBlank p newline o (cs ++ '\n' :: c :: more) =
      (true, ⟨o + Text.byteLength cs + 1, c :: more⟩) := by
  have hstop : ∀ o, skipBlank .outside true o (c :: more) = (true, ⟨o, c :: more⟩) := fun o => by
    rw [skipBlank_outside (absurd · hslash), hc, if_neg (by decide)]
  have hbytes : ∀ o (d : Char) cs, o + Text.byteLength (d :: cs) + 1 =
      o + d.utf8Size + Text.byteLength cs + 1 := fun o d cs => by
    rw [Text.byteLength, ← Nat.add_assoc]
  fun_induction skipBlank p newline o cs with
  | case1 p newline o =>
      cases p with
      | outside =>
          rw [List.nil_append, skipBlank_outside (absurd · (by decide)), if_pos (by decide),
            show Text.isLineTerminator '\n' = true from rfl, Bool.or_true]
          exact hstop (o + 1)
      | line =>
          rw [List.nil_append, skipBlank_line, if_pos (.inl rfl)]
          exact hstop (o + 1)
      | block =>
          -- an open comment would take the line break
          cases hblock
  | case2 newline o cs ih =>
      rw [hbytes, hbytes]
      exact ih h hblock
  | case3 newline o cs ih =>
      rw [hbytes, hbytes]
      exact ih h hblock
  | case4 newline o d cs hline hcomment hblank ih =>
      have hd := ne_slash_of_isBlank hblank
      rw [endsInBlock_outside hd] at hblock
      rw [List.cons_append, skipBlank_outside (absurd · hd), if_pos hblank, ih h hblock, hbytes]
  | case5 newline o d cs hline hcomment hblank => simp at h
  | case6 newline o d cs hd ih =>
      rw [endsInBlock, if_pos hd] at hblock
      rw [List.cons_append, skipBlank_line, if_pos hd, ih h hblock, hbytes]
  | case7 newline o d cs hd ih =>
      rw [endsInBlock, if_neg hd] at hblock
      rw [List.cons_append, skipBlank_line, if_neg hd, ih h hblock, hbytes]
  | case8 afterStar newline o d cs hd ih =>
      rw [endsInBlock, if_pos hd] at hblock
      rw [List.cons_append, skipBlank_block, if_pos hd, ih h hblock, hbytes]
  | case9 afterStar newline o d cs hd ih =>
      rw [endsInBlock, if_neg hd] at hblock
      rw [List.cons_append, skipBlank_block, if_neg hd, ih h hblock, hbytes]

/-- The empty text has the end of the input as its only token. -/
theorem tokensFrom_nil (afterOperand : Bool) (o : Nat) :
    tokensFrom afterOperand ⟨o, []⟩ = [⟨.endOfInput, ⟨o, o⟩, false⟩] :=
  tokensFrom_of_next rfl

/-- Every text has a token. -/
theorem tokensFrom_ne_nil (afterOperand : Bool) (k : Cursor) : tokensFrom afterOperand k ≠ [] := by
  obtain ⟨before, last, htokens, -, -⟩ := exists_tokensFrom_eq afterOperand k
  simp [htokens]

/-- The text from a place on is blank if its only token is the end of the input. -/
theorem skipBlank_of_tokensFrom {afterOperand : Bool} {last : Token}
    (h : tokensFrom afterOperand ⟨o, cs⟩ = [last]) :
    (skipBlank .outside false o cs).2.rest = [] := by
  cases hnext : next afterOperand ⟨o, cs⟩ with
  | mk t k =>
      have hkind : t.kind = .endOfInput := by
        by_contra hkind
        rw [tokensFrom_of_next hnext, if_neg hkind] at h
        exact tokensFrom_ne_nil _ _ (List.cons.inj h).2
      rw [next_eq] at hnext
      cases hblank : skipBlank .outside false o cs with
      | mk newline k₁ =>
          obtain ⟨o₁, _ | ⟨c, cs₁⟩⟩ := k₁
          · rfl
          · simp only [hblank, fromHead] at hnext
            cases hnext
            exact absurd hkind (significant_ne_endOfInput _ _ _ _)

/-! ## Tokens in front of a line break -/

/-- The tokens of a text whose last one is valid are not affected by what stands behind it. -/
theorem tokensFrom_before {afterOperand : Bool} {before : List Token} {last : Token}
    (h : tokensFrom afterOperand ⟨o, cs⟩ = before ++ [last])
    (hvalid : ∀ t ∈ before.getLast?, ∀ fault, t.kind ≠ .invalid fault) :
    ∃ afterOperand' taken rest, cs = taken ++ rest ∧
      o + Text.byteLength taken = before.getLast?.elim o (·.span.stop) ∧
      tokensFrom afterOperand' ⟨o + Text.byteLength taken, rest⟩ = [last] ∧
      ∀ more, tokensFrom afterOperand ⟨o, cs ++ '\n' :: more⟩ =
        before ++ tokensFrom afterOperand' ⟨o + Text.byteLength taken, rest ++ '\n' :: more⟩ := by
  induction before generalizing afterOperand o cs with
  | nil => exact ⟨afterOperand, [], cs, rfl, rfl, h, fun more => rfl⟩
  | cons t before ih =>
      obtain ⟨blank, taken, rest, t₀, rfl, hs⟩ := exists_spells afterOperand cs
      have hnext := hs.next o rest List.prefix_rfl
      rw [tokensFrom_of_next hnext] at h
      split at h
      · simp at h
      · next hkind =>
          obtain ⟨rfl, htail⟩ := List.cons.inj h
          obtain ⟨afterOperand', taken', rest', rfl, hoffset, hlast, hbefore⟩ :=
            ih htail fun u hu => hvalid u (by simp [List.getLast?_cons, Option.mem_def.1 hu])
          -- only the last token could be cut short, and it is valid
          have hkept : KeptToken ((t₀.shift o).kind,
              ⟨o + Text.byteLength (blank ++ taken), taken' ++ rest'⟩) := by
            cases before with
            | nil => exact .inr (hvalid _ rfl)
            | cons u before =>
                refine .inl fun hnil => ?_
                rw [show taken' ++ rest' = [] from hnil, tokensFrom_nil] at htail
                simp at htail
          have hbytes : o + Text.byteLength (blank ++ taken) + Text.byteLength taken' =
              o + Text.byteLength (blank ++ taken ++ taken') := by
            rw [Text.byteLength_append (blank ++ taken), Nat.add_assoc]
          rw [hbytes] at hoffset hlast hbefore
          refine ⟨afterOperand', blank ++ taken ++ taken', rest', by simp, ?_, hlast,
            fun more => ?_⟩
          · have hstop : (t₀.shift o).span.stop = o + Text.byteLength (blank ++ taken) := by
              simp [hs.span, Span.shift, Nat.add_comm]
            rw [hoffset, List.getLast?_cons]
            cases before.getLast? with
            | none => exact hstop.symm
            | some u => rfl
          · have hread := unaffected_next hnext hkind hkept more
            dsimp only at hread
            rw [hnext] at hread
            rw [tokensFrom_of_next hread, if_neg hkind, List.cons_append, ← hbefore more]
            rfl

/-- Behind a blank text the next line is read as it stands. -/
theorem tokensFrom_lineBreak {afterOperand : Bool} {last : Token}
    (h : tokensFrom afterOperand ⟨o, cs⟩ = [last]) (hblock : endsInBlock .outside cs = false) :
    tokensFrom afterOperand ⟨o, cs ++ ['\n', '\x7d']⟩ =
      [⟨.rightBrace, ⟨o + Text.byteLength cs + 1, o + Text.byteLength cs + 2⟩, true⟩,
        ⟨.endOfInput, ⟨o + Text.byteLength cs + 2, o + Text.byteLength cs + 2⟩, false⟩] := by
  have hblank := skipBlank_lineBreak (skipBlank_of_tokensFrom h) hblock (c := '\x7d') (by decide)
    (by decide) []
  have hnext : next afterOperand ⟨o, cs ++ ['\n', '\x7d']⟩ =
      (⟨.rightBrace, ⟨o + Text.byteLength cs + 1, o + Text.byteLength cs + 2⟩, true⟩,
        ⟨o + Text.byteLength cs + 2, []⟩) := by
    rw [next_eq]
    simp only [hblank]
    rfl
  rw [tokensFrom_of_next hnext, if_neg (by simp), tokensFrom_nil]

/-! ## Tokens behind a line break -/

/-- A blank is skipped alike whether a line has ended before it or not. -/
theorem skipBlank_newline (p : BlankPlace) (newline newline' : Bool) (o : Nat) (cs : List Char) :
    skipBlank p (newline || newline') o cs =
      (newline || (skipBlank p newline' o cs).1, (skipBlank p newline' o cs).2) := by
  fun_induction skipBlank p newline' o cs with
  | case1 => cases ‹BlankPlace› <;> rfl
  | case2 newline' o cs ih => exact ih
  | case3 newline' o cs ih => exact ih
  | case4 newline' o c cs hline hblock hblank ih =>
      have hc := ne_slash_of_isBlank hblank
      rw [skipBlank_outside (absurd · hc), if_pos hblank, Bool.or_assoc]
      exact ih
  | case5 newline' o c cs hline hblock hblank =>
      rw [skipBlank_outside fun hc cs' => ⟨hline cs' hc, hblock cs' hc⟩, if_neg hblank]
  | case6 newline' o c cs hc ih =>
      rw [skipBlank_line, if_pos hc]
      simpa only [Bool.or_true] using ih
  | case7 newline' o c cs hc ih =>
      rw [skipBlank_line, if_neg hc]
      exact ih
  | case8 afterStar newline' o c cs hc ih =>
      rw [skipBlank_block, if_pos hc]
      exact ih
  | case9 afterStar newline' o c cs hc ih =>
      rw [skipBlank_block, if_neg hc]
      simpa only [Bool.or_assoc] using ih

/-- Some tokens, the first of which stands on a new line. -/
def onNewLine : List Token → List Token
  | [] => []
  | t :: ts => { t with newlineBefore := true } :: ts

/-- Behind a line feed the first token stands on a new line, and all else is the same. -/
theorem tokensFrom_lineFeed (afterOperand : Bool) (o : Nat) (cs : List Char) :
    tokensFrom afterOperand ⟨o, '\n' :: cs⟩ = onNewLine (tokensFrom afterOperand ⟨o + 1, cs⟩) := by
  have hblank : skipBlank .outside false o ('\n' :: cs) =
      (true, (skipBlank .outside false (o + 1) cs).2) := by
    rw [skipBlank_outside (absurd · (by decide)), if_pos (by decide)]
    exact skipBlank_newline .outside true false (o + 1) cs
  have hnext : next afterOperand ⟨o, '\n' :: cs⟩ =
      ({ (next afterOperand ⟨o + 1, cs⟩).1 with newlineBefore := true },
        (next afterOperand ⟨o + 1, cs⟩).2) := by
    rw [next_eq, next_eq]
    simp only [hblank]
  cases hread : next afterOperand ⟨o + 1, cs⟩ with
  | mk t k =>
      rw [hread] at hnext
      rw [tokensFrom_of_next hnext, tokensFrom_of_next hread]
      dsimp only
      split <;> rfl

end Token

end ModuleGraph
