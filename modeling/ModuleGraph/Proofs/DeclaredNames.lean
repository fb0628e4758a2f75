import ModuleGraph.Proofs.BindingPatterns
import ModuleGraph.Proofs.Printing

/-!
# The names of exported declarations

The names of an exported declaration are read off the whole run of code that it stands in, and that
run goes on behind a line break. They are the names of its own patterns where every comma behind it,
within the run, stands inside brackets. A comma outside of them is taken for the next comma of the
declaration: `export const a = 0` before a line `const b = 0, c = 0` exports `a` and `c`
(`SyntaxTree.parse_twoLines`).
-/

namespace ModuleGraph

open TokenStream ModuleGraph.Parser
open Token (Kind)

/-! ## Where declarators end -/

/-- All commas stand inside brackets. -/
def CommasEnclosed (ks : List Kind) : Prop :=
  ∀ n (h : n < ks.length), ks[n] = .comma → Kind.height (ks.take n) ≠ 0

instance (ks : List Kind) : Decidable (CommasEnclosed ks) :=
  inferInstanceAs (Decidable (∀ n (h : n < ks.length), ks[n] = .comma →
    Kind.height (ks.take n) ≠ 0))

/-- In front of a comma that is enclosed some bracket is open. -/
theorem CommasEnclosed.height_ne {ks : List Kind} (h : CommasEnclosed ks) (pre : List Kind)
    {more : List Kind} (hks : ks = pre ++ .comma :: more) : Kind.height pre ≠ 0 := by
  subst hks
  simpa using h pre.length (by simp) (by simp)

/-- A comma that ends an expression stands as deep as the expression. -/
theorem exists_of_skipExpression {depth : Nat} {ks more : List Kind}
    (h : skipExpression depth ks = .comma :: more) :
    ∃ pre, ks = pre ++ .comma :: more ∧ (depth : Int) + Kind.height pre = 0 := by
  induction ks generalizing depth with
  | nil => simp [skipExpression] at h
  | cons k ks ih =>
      by_cases hstop : depth = 0 ∧ (k = .comma ∨ k = .semicolon ∨ k.isCloseBracket)
      · obtain ⟨rfl, hk⟩ := hstop
        rw [skipExpression, if_pos hk] at h
        exact ⟨[], h, rfl⟩
      · -- the token leads to another depth, at which the comma is found
        obtain ⟨next, hnext⟩ : ∃ next : Nat, (next : Int) = depth + k.rise := by
          refine ⟨((depth : Int) + k.rise).toNat, Int.toNat_of_nonneg ?_⟩
          obtain ⟨-, -, hrise⟩ | ⟨-, hclose, hrise⟩ | ⟨-, -, hrise⟩ := k.rise_cases
          · omega
          · have hdepth : depth ≠ 0 := fun hzero => hstop ⟨hzero, .inr (.inr hclose)⟩
            omega
          · omega
        have hinside : k.separates → 0 < depth := by
          intro hk
          refine Nat.pos_of_ne_zero fun hzero => hstop ⟨hzero, ?_⟩
          simpa [Kind.separates, ← or_assoc] using Or.inl hk
        rw [skipExpression_cons hnext hinside] at h
        obtain ⟨pre, rfl, hheight⟩ := ih h
        exact ⟨k :: pre, rfl, by rw [Kind.height_cons]; omega⟩

/-- Only an equals sign starts an initializer. -/
theorem skipInitializer_cons {k : Kind} (hk : k ≠ .equal) (ks : List Kind) :
    skipInitializer (k :: ks) = k :: ks := by
  cases k <;> first | rfl | exact absurd rfl hk

/-- Tokens whose commas are enclosed end the declarators in front of them. -/
theorem CommasEnclosed.endsDeclarators {ks : List Kind} (h : CommasEnclosed ks) :
    EndsDeclarators ks := by
  intro e? more heq
  cases e? with
  | some e =>
      change skipExpression 0 (e.kinds ++ ks) = .comma :: more at heq
      rw [e.skipExpression_kinds] at heq
      obtain ⟨pre, rfl, hheight⟩ := exists_of_skipExpression heq
      exact h.height_ne pre rfl (by simpa using hheight)
  | none =>
      cases ks with
      | nil => cases heq
      | cons k ks =>
          by_cases hk : k = .equal
          · -- what looks like another initializer is skipped as one
            subst hk
            change skipExpression 0 ks = .comma :: more at heq
            obtain ⟨pre, rfl, hheight⟩ := exists_of_skipExpression heq
            refine h.height_ne (.equal :: pre) rfl ?_
            simpa [Kind.rise, Kind.isOpenBracket, Kind.isCloseBracket] using hheight
          · rw [initializer, List.nil_append, skipInitializer_cons hk] at heq
            exact h.height_ne [] heq rfl

/-! ## The names of a statement -/

/-- The declaration between two places is the run of code that its names are read off. -/
structure DeclarationCode (names : List String) (c : Code) (s s' : TokenStream) : Prop where
  names : names = declaredNames s s'
  reads : ∃ codeEnd final modules, c = .mk (s.current.span.cover final) modules ∧
    Reads (.code codeEnd true 0 s.current.span final modules) s s'

/-- An exported declaration is read as the run of code that its names are read off. -/
theorem Reads.declarationCode {names : List String} {c : Code} {span : Span} {s s' : TokenStream}
    (h : Reads (.statement (.exportDeclaration names c span)) s s') (hs : s.InOrder) :
    DeclarationCode names c s.advance s' := by
  cases h with
  | importFrom hat hread =>
      obtain ⟨_, _, _, _, hst, -⟩ :=
        span_of_importFrom Clausal.trivial hs.closed hat hs.ordered hread
      cases hst
  | exportStatement hat hread =>
      have hbegins : Phrase.Begins s.advance
          (.exported s.current.span (.exportDeclaration names c span)) :=
        begins_exported hs.closed hs.ordered hat
      obtain ⟨u, hu, hstart, -, ho⟩ := hbegins
      cases hread with
      | exportAll hstar hread =>
          obtain ⟨_, _, _, _, hst, -⟩ := span_of_exportAll (fun _ => Clausal.trivial)
            (fun _ _ _ _ => .intro) hs.advance.closed hstar hu ho hstart.symm hread
          cases hst
      | exportNames hbrace hread =>
          obtain ⟨_, _, _, _, hst, -⟩ := span_of_exportNames Clausal.trivial hs.advance.closed
            hbrace hu ho hstart.symm hread
          cases hst
      | exportDeclaration _ _ hcode _ => exact ⟨rfl, _, _, _, rfl, hcode⟩

/-- The names of a variable declaration are those that its tokens bind. -/
theorem declaredNames_variable {s s' : TokenStream} {ts : List Token} {word : VariableWord}
    {ks : List Kind} (hts : s.toList = ts ++ s'.toList)
    (hkinds : ts.map Token.kind = .keyword word.keyword :: ks) :
    declaredNames s s' = boundNames (.keyword word.keyword :: ks) := by
  have hlength : s.ahead.length - s'.ahead.length = ts.length := by
    have heq := congrArg List.length hts
    simp only [toList, List.length_append, List.length_cons] at heq
    omega
  have hkind : s.kind = .keyword word.keyword := by
    cases ts with
    | nil => cases hkinds
    | cons t ts =>
        rw [List.map_cons] at hkinds
        rw [kind, (List.cons_eq_cons.1 hts).1]
        exact (List.cons_eq_cons.1 hkinds).1
  have hname : s.declaredName? = none := by
    have hasync : s.atWord "async" = false := by
      rw [Bool.eq_false_iff, ne_eq, atWord_iff, hkind]
      simp
    rw [declaredName?, hasync]
    cases word <;> simp [hkind, VariableWord.keyword]
  rw [declaredNames, hname, hlength, hts, List.take_left, hkinds]

/-- A declaration whose run of code holds no other comma outside brackets has the names of its own
patterns. -/
theorem DeclarationCode.names_eq {tree : SyntaxTree} {names : List String} {c : Code}
    {s s' : TokenStream} (h : DeclarationCode names c s s')
    (hs : s.Follows (ofTokens (Token.ofChars tree.text))) {word : VariableWord} {d : Declarator}
    {ds : List Declarator} {rest : List Kind}
    (hkinds : (tree.tokensIn c.span).map Token.kind =
      .keyword word.keyword :: (Declarator.list (d :: ds) ++ rest))
    (hrest : CommasEnclosed rest) : names = Declarator.namesOf (d :: ds) := by
  obtain ⟨codeEnd, final, modules, rfl, hcode⟩ := h.reads
  have horder := (inOrder_ofChars tree.text).of_follows hs
  have htokens := tree.exists_tokensIn hs (hcode.code_spans horder)
  rw [h.names, declaredNames_variable htokens hkinds, boundNames_list hrest.endsDeclarators]

/-! ## The tokens of a text -/

namespace Token

/-- The tokens of a text are of the given kinds, wherever it starts. -/
def Lexes (cs : List Char) (ks : List Kind) : Prop :=
  ∀ afterOperand o, (tokensFrom afterOperand ⟨o, cs⟩).map Token.kind = ks

namespace Lexes

variable {cs rest : List Char} {c : Char} {k : Kind} {ks : List Kind}

/-- A text has one token more with a gap and a significant token in front of it. -/
theorem of_significant (g : Gap) (hblank : Text.isBlank c = false) (hslash : c ≠ '/')
    (hread : ∀ afterOperand o, ∃ o', significant afterOperand o c cs = (k, ⟨o', rest⟩))
    (hk : k ≠ .endOfInput) (h : Lexes rest ks) : Lexes (g.chars ++ c :: cs) (k :: ks) := by
  intro afterOperand o
  obtain ⟨o', hsignificant⟩ := hread afterOperand (o + Text.byteLength g.chars)
  have hnext : next afterOperand ⟨o, g.chars ++ c :: cs⟩ =
      (⟨k, ⟨o + Text.byteLength g.chars, o'⟩, g.endsLine⟩, ⟨o', rest⟩) := by
    rw [next_eq, skipBlank_gap g hblank hslash]
    dsimp only [fromHead]
    rw [hsignificant]
  rw [tokensFrom_of_next hnext, if_neg hk, List.map_cons, h]

/-- A text has one token more with a gap and a lexeme in front of it. -/
theorem lexeme (g : Gap) (l : Lexeme) (hrest : Parted rest) (h : Lexes rest ks) :
    Lexes (g.chars ++ (l.chars ++ rest)) (l.kind :: ks) := by
  intro afterOperand o
  rw [tokensFrom_lexeme afterOperand g l hrest, List.map_cons, h]

/-- An equals sign between spaces is a token of its own. -/
theorem equal (h : Lexes (' ' :: rest) ks) : Lexes (' ' :: '=' :: ' ' :: rest) (.equal :: ks) :=
  of_significant .space (by decide) (by decide) (fun _ o => ⟨o + 1, rfl⟩) (by simp) h

/-- A zero behind a space is a number. -/
theorem zero (hrest : Parted rest) (h : Lexes rest ks) :
    Lexes (' ' :: '0' :: rest) (.number "0" :: ks) := by
  refine of_significant .space (by decide) (by decide) (fun _ o => ⟨o + 1, ?_⟩) (by simp) h
  cases rest with
  | nil => rfl
  | cons c cs =>
      have hmem := hrest c rfl
      simp only [List.mem_cons, List.not_mem_nil, or_false] at hmem
      rcases hmem with rfl | rfl | rfl | rfl <;> rfl

/-- A line end alone is the end of the input. -/
theorem lineEnd : Lexes ['\n'] [.endOfInput] := by
  intro afterOperand o
  have hnext : next afterOperand ⟨o, ['\n']⟩ =
      (⟨.endOfInput, ⟨o + 1, o + 1⟩, true⟩, ⟨o + 1, []⟩) := rfl
  rw [tokensFrom_of_next hnext, if_pos rfl]
  rfl

end Lexes

end Token

/-! ## Declarations on two lines -/

/-- Tokens that are no brackets open none. -/
theorem height_eq_zero {ks : List Kind} (h : ∀ k ∈ ks, k.rise = 0) : Kind.height ks = 0 := by
  induction ks with
  | nil => rfl
  | cons k ks ih =>
      rw [List.forall_mem_cons] at h
      rw [Kind.height_cons, h.1, ih h.2, Int.zero_add]

/-- An expression without brackets, commas and semicolons. -/
def Expression.plain (ks : List Kind) (h : ∀ k ∈ ks, k.rise = 0 ∧ k.separates = false) :
    Expression where
  kinds := ks
  encloses := {
    nonneg := fun n _ => by
      simp [height_eq_zero fun k hk => (h k (List.mem_of_mem_take hk)).1]
    inside := fun n hn hk => by
      rw [(h _ (List.getElem_mem hn)).2] at hk
      cases hk }
  balanced := height_eq_zero fun k hk => (h k hk).1

/-- A name that is set to zero. -/
def Declarator.zero (n : LocalName) : Declarator :=
  ⟨.name n.name, some (.plain [.number "0"] (by decide))⟩

/-- A name that is set to zero, with a line behind it that sets another constant to zero: the tokens
up to the next comma. -/
def Declarator.zeroAcross (n m : LocalName) : Declarator :=
  ⟨.name n.name, some (.plain [.number "0", .keyword .«const», .identifier m.name, .equal,
    .number "0"] (by simp [Kind.rise, Kind.separates, Kind.isOpenBracket, Kind.isCloseBracket]))⟩

/-- The declarators of a line as they are read with the first one of the next line. -/
def Declarator.across : List LocalName → LocalName → List Declarator
  | [], _ => []
  | [n], m => [zeroAcross n m]
  | n :: ns, m => zero n :: across ns m

/-- The declarators as they are read are those of the first line, then `const` and those of the
second line. -/
theorem Declarator.list_across (a : LocalName) (as : List LocalName) (b : LocalName)
    (bs : List LocalName) : list (across (a :: as) b ++ bs.map zero) =
      list ((a :: as).map zero) ++ .keyword .«const» :: list ((b :: bs).map zero) := by
  induction as generalizing a with
  | nil => cases bs <;> rfl
  | cons a' as ih =>
      obtain ⟨d, ds, hds⟩ : ∃ d ds, across (a' :: as) b ++ bs.map zero = d :: ds := by
        cases as <;> exact ⟨_, _, rfl⟩
      have hacross : across (a :: a' :: as) b ++ bs.map zero = zero a :: d :: ds :=
        congrArg (zero a :: ·) hds
      rw [hacross, list_cons_cons, ← hds, ih, ← List.cons_append, ← List.append_assoc]
      rfl

/-- The declarators of some names have these names. -/
theorem Declarator.namesOf_zero (ns : List LocalName) :
    namesOf (ns.map zero) = ns.map (·.name) := by
  induction ns with
  | nil => rfl
  | cons n ns ih => exact congrArg (n.name :: ·) ih

/-- The declarators across the two lines have the names of the first line. -/
theorem Declarator.namesOf_across (as : List LocalName) (b : LocalName) :
    namesOf (across as b) = as.map (·.name) := by
  match as with
  | [] | [a] => rfl
  | a :: a' :: as => exact congrArg (a.name :: ·) (namesOf_across (a' :: as) b)

/-- A name that is set to zero, as it is written. -/
def zeroText (n : LocalName) : List Char :=
  n.name.toList ++ " = 0".toList

/-- Names that are set to zero, with commas between them. -/
def zeroTexts (ns : List LocalName) : List Char :=
  ", ".toList.intercalate (ns.map zeroText)

/-- The word of a declaration of constants. -/
def constWord : Lexeme := .word ⟨"const", by decide⟩

/-- An exported declaration and another one on the next line. -/
def twoLines (as bs : List LocalName) : List Char :=
  "export const ".toList ++ zeroTexts as ++ "\nconst ".toList ++ zeroTexts bs ++ "\n".toList

namespace Token.Lexes

variable {rest : List Char} {ks : List Kind}

/-- A name that is set to zero has the tokens of its declarator. -/
theorem zeroText (g : Gap) (n : LocalName) (hrest : Parted rest) (h : Lexes rest ks) :
    Lexes (g.chars ++ (ModuleGraph.zeroText n ++ rest)) ((Declarator.zero n).kinds ++ ks) := by
  have hparted : Parted (' ' :: '=' :: ' ' :: '0' :: rest) := by simp [Parted]
  have hword := lexeme g (.word n.toWord) hparted (equal (zero hrest h))
  rw [Lexeme.kind, n.wordKind_name] at hword
  rw [ModuleGraph.zeroText, List.append_assoc]
  exact hword

/-- Names that are set to zero have the tokens of their declarators. -/
theorem zeroTexts (g : Gap) {ns : List LocalName} (hns : ns ≠ []) (hrest : Parted rest)
    (h : Lexes rest ks) :
    Lexes (g.chars ++ (ModuleGraph.zeroTexts ns ++ rest))
      (Declarator.list (ns.map Declarator.zero) ++ ks) := by
  obtain ⟨n, ns, rfl⟩ := List.exists_cons_of_ne_nil hns
  clear hns
  induction ns generalizing g n with
  | nil =>
      rw [ModuleGraph.zeroTexts, List.map_singleton, List.intercalate_singleton, List.map_singleton,
        Declarator.list_singleton]
      exact zeroText g n hrest h
  | cons m ns ih =>
      have hcomma := lexeme .nothing .comma (by simp [Parted, Gap.chars]) (ih .space m)
      have hread := zeroText g n (by simp [Parted, Gap.chars, Lexeme.chars]) hcomma
      rw [List.map_cons, List.map_cons, Declarator.list_cons_cons, ModuleGraph.zeroTexts,
        List.map_cons, List.map_cons, List.intercalate_cons_cons, List.append_assoc,
        List.append_assoc, List.append_assoc]
      exact hread

end Token.Lexes

/-- The kinds of the tokens of two lines, up to the end of the input. -/
def twoLinesKinds (as bs : List LocalName) : List Kind :=
  .keyword .«const» :: (Declarator.list (as.map .zero) ++
    .keyword .«const» :: Declarator.list (bs.map .zero))

/-- Two lines are written as lexemes with the gaps between them. -/
theorem twoLines_eq (as bs : List LocalName) : twoLines as bs =
    Gap.nothing.chars ++ (Written.exportWord.chars ++ (Gap.space.chars ++ (constWord.chars ++
      (Gap.space.chars ++ (zeroTexts as ++ (Gap.line.chars ++ (constWord.chars ++
        (Gap.space.chars ++ (zeroTexts bs ++ ['\n']))))))))) := by
  have hstart : "export const ".toList =
      Written.exportWord.chars ++ ' ' :: (constWord.chars ++ [' ']) := by decide
  have hline : "\nconst ".toList = '\n' :: (constWord.chars ++ [' ']) := by decide
  have hend : "\n".toList = ['\n'] := by decide
  have hlines : ∀ xs ys : List Char,
      "export const ".toList ++ xs ++ "\nconst ".toList ++ ys ++ "\n".toList =
        Written.exportWord.chars ++ ' ' :: (constWord.chars ++ ' ' :: (xs ++
          '\n' :: (constWord.chars ++ ' ' :: (ys ++ ['\n'])))) := fun xs ys => by
    simp only [hstart, hline, hend, List.append_assoc, List.cons_append, List.nil_append]
  exact hlines (zeroTexts as) (zeroTexts bs)

/-- The tokens of two lines, whatever names they set. -/
theorem lexes_twoLines {as bs : List LocalName} (has : as ≠ []) (hbs : bs ≠ []) :
    Token.Lexes (twoLines as bs)
      (.keyword .«export» :: (twoLinesKinds as bs ++ [.endOfInput])) := by
  have hexport : Written.exportWord.kind = .keyword .«export» := by decide
  have hconst : constWord.kind = .keyword .«const» := by decide
  have hlast := Token.Lexes.zeroTexts .space hbs (by simp [Token.Parted]) .lineEnd
  have hsecond := Token.Lexes.lexeme .line constWord (by simp [Token.Parted, Gap.chars]) hlast
  have hthis := Token.Lexes.zeroTexts .space has (by simp [Token.Parted, Gap.chars]) hsecond
  have hfirst := Token.Lexes.lexeme .space constWord (by simp [Token.Parted, Gap.chars]) hthis
  have hall := Token.Lexes.lexeme .nothing Written.exportWord (by simp [Token.Parted, Gap.chars])
    hfirst
  rw [hexport, hconst] at hall
  rw [twoLines_eq, twoLinesKinds, List.cons_append, List.append_assoc, List.cons_append]
  exact hall

/-- On two lines all but the first name of the second one are taken for names of the first. -/
theorem boundNames_twoLines (a b : LocalName) (as bs : List LocalName) :
    boundNames (twoLinesKinds (a :: as) (b :: bs)) =
      (a :: as).map (·.name) ++ bs.map (·.name) := by
  obtain ⟨d, ds, hds⟩ : ∃ d ds, Declarator.across (a :: as) b ++ bs.map .zero = d :: ds := by
    cases as <;> exact ⟨_, _, rfl⟩
  have hend : CommasEnclosed [] := by decide
  have hread := boundNames_list hend.endsDeclarators .«const» d ds
  rw [← hds, List.append_nil, Declarator.list_across] at hread
  rw [twoLinesKinds]
  refine hread.trans ?_
  rw [Declarator.namesOf, List.flatMap_append, ← Declarator.namesOf, ← Declarator.namesOf,
    Declarator.namesOf_across, Declarator.namesOf_zero]

/-! ## Flat code -/

/-- A plain token that does not end code either. -/
def Token.Kind.isFlat : Kind → Bool
  | .endOfInput | .invalid _ | .semicolon => false
  | k => k.isPlain

/-- A flat token is plain. -/
theorem Token.Kind.isPlain_of_isFlat {k : Kind} (h : k.isFlat) : k.isPlain := by
  unfold isFlat at h
  split at h
  · cases h
  · cases h
  · cases h
  · exact h

namespace TokenStream

/-- The tokens ahead are flat up to the end of the input. -/
structure IsFlat (s : TokenStream) (ks : List Kind) : Prop where
  kinds : s.toList.map Token.kind = ks ++ [.endOfInput]
  flat : ∀ k ∈ ks, k.isFlat

variable {s : TokenStream} {k : Kind} {ks : List Kind}

namespace IsFlat

/-- The first of the flat tokens is the current one. -/
theorem kind_eq (h : s.IsFlat (k :: ks)) : s.kind = k :=
  (List.cons_eq_cons.1 h.kinds).1

/-- The tokens of a text are flat behind the first one if their kinds are. -/
theorem of_advance (hkinds : s.toList.map Token.kind = k :: (ks ++ [.endOfInput]))
    (hks : ∀ k ∈ ks, k.isFlat) : s.advance.IsFlat ks where
  kinds := by
    have htail : s.ahead.map Token.kind = ks ++ [.endOfInput] := (List.cons_eq_cons.1 hkinds).2
    unfold TokenStream.advance
    split
    · next hahead => simp [hahead] at htail
    · next t ts hahead => rwa [hahead] at htail
  flat := hks

/-- Behind a flat token the others are flat. -/
theorem advance (h : s.IsFlat (k :: ks)) : s.advance.IsFlat ks :=
  .of_advance h.kinds fun k hk => h.flat k (List.mem_cons_of_mem _ hk)

/-- No module starts among flat tokens, as a brace would open its body. -/
theorem ne_leftBrace (h : s.IsFlat ks) {s' : TokenStream} (hs' : s'.Follows s) :
    s'.kind ≠ .leftBrace := by
  intro hbrace
  have hmem : s'.kind ∈ ks ++ [.endOfInput] := by
    rw [← h.kinds]
    exact List.mem_map_of_mem (hs'.subset (List.mem_cons_self ..))
  rw [hbrace, List.mem_append, List.mem_singleton] at hmem
  obtain hmem | hmem := hmem
  · exact absurd (h.flat _ hmem) (by decide)
  · cases hmem

/-- No module starts at flat tokens. -/
theorem not_module (h : s.IsFlat ks) : s.atModule = false ∧ s.atAnonymousModule = false := by
  have hsecond := h.ne_leftBrace (follows_advance s)
  have hthird := h.ne_leftBrace ((follows_advance s.advance).of_advance)
  constructor
  · rw [atModule, show (s.third.kind == .leftBrace) = false from beq_eq_false_iff_ne.2 hthird,
      Bool.and_false]
  · rw [atAnonymousModule, show (s.second.kind == .leftBrace) = false from
      beq_eq_false_iff_ne.2 hsecond, Bool.and_false, Bool.false_and]

/-- Code goes on over a flat token. -/
theorem goesOn (h : s.IsFlat (k :: ks)) (codeEnd : CodeEnd) (isFirst : Bool) :
    GoesOn codeEnd isFirst 0 s := by
  have hflat : s.kind.isFlat := h.kind_eq ▸ h.flat k (List.mem_cons_self ..)
  obtain ⟨hmodule, hanonymous⟩ := h.not_module
  have hne : ∀ {k : Kind}, k.isFlat = false → s.kind ≠ k := by
    rintro k hk rfl
    rw [hk] at hflat
    cases hflat
  have hstarts : startsHere s = false := by
    have himport : s.atImport = false := Bool.eq_false_iff.2 (mt kind_of_atImport (hne rfl))
    have hexport : s.atKeyword .«export» = false :=
      Bool.eq_false_iff.2 (mt atKeyword_iff.1 (hne rfl))
    rw [startsHere, himport, hexport, hmodule, Bool.or_self, Bool.or_self, Bool.and_false]
  refine ⟨hne rfl, fun fault => hne rfl, fun h => hne (k := .semicolon) rfl h.2, fun h => ?_,
    ?_, ?_, fun h => absurd h.1 (by decide)⟩
  · rw [Kind.isCloseBracket_of_isPlain (Kind.isPlain_of_isFlat hflat)] at h
    cases h.2
  · rw [onModule, hmodule, hanonymous, Bool.or_self, Bool.false_and]
  · rw [onStatement, hstarts, Bool.and_false]

/-- Flat code reaches up to the end of the input. -/
theorem reads_code (h : s.IsFlat ks) (codeEnd : CodeEnd) (isFirst : Bool) (last : Span) :
    ∃ final s', Reads (.code codeEnd isFirst 0 last final []) s s' ∧ s'.IsFlat [] := by
  induction ks generalizing s isFirst last with
  | nil => exact ⟨last, s, .codeAtEnd (List.cons_eq_cons.1 h.kinds).1, h⟩
  | cons k ks ih =>
      obtain ⟨final, s', hread, hs'⟩ := ih h.advance false s.current.span
      have hflat : s.kind.isFlat := h.kind_eq ▸ h.flat k (List.mem_cons_self ..)
      refine ⟨final, s', .codeToken (h.goesOn codeEnd isFirst) ?_, hs'⟩
      rwa [Kind.depthAfter_of_isPlain (Kind.isPlain_of_isFlat hflat)]

end IsFlat

end TokenStream

/-- An exported declaration whose tokens are flat reaches up to the end of the text. -/
theorem SyntaxTree.parse_flat {text : List Char} (word : VariableWord) {ks : List Kind}
    {names : List String} (htext : Token.Lexes text
      (.keyword .«export» :: (.keyword word.keyword :: ks ++ [.endOfInput])))
    (hks : ∀ k ∈ ks, k.isFlat) (hnames : boundNames (.keyword word.keyword :: ks) = names)
    (hne : names ≠ []) :
    ∃ code span, parse text = .ok ⟨text, [.exportDeclaration names code span]⟩ := by
  have hlist := toList_ofTokens (ofChars_ne_nil text)
  generalize hs : ofTokens (Token.ofChars text) = s at hlist
  have hkinds : s.toList.map Token.kind =
      .keyword .«export» :: (.keyword word.keyword :: ks ++ [.endOfInput]) := by
    rw [hlist]
    exact htext false 0
  have hkind : s.kind = .keyword .«export» := (List.cons_eq_cons.1 hkinds).1
  have hflat : s.advance.IsFlat (.keyword word.keyword :: ks) :=
    .of_advance hkinds (List.forall_mem_cons.2 ⟨by cases word <;> rfl, hks⟩)
  obtain ⟨final, s', hcode, hs'⟩ := hflat.reads_code .statement true s.advance.current.span
  -- the names are read off all the tokens in front of the end of the input
  obtain ⟨ts, hts⟩ := hcode.follows
  have hread : ts.map Token.kind = .keyword word.keyword :: ks := by
    have hend : s'.toList.map Token.kind = [.endOfInput] := hs'.kinds
    have hkinds := hflat.kinds
    rw [← hts, List.map_append, hend] at hkinds
    exact List.append_cancel_right hkinds
  obtain rfl : declaredNames s.advance s' = names :=
    (declaredNames_variable hts.symm hread).trans hnames
  have hdeclaration : declarationEnd? s.advance.kind = some .statement := by
    rw [hflat.kind_eq]
    cases word <;> rfl
  have hstatement := Reads.exportStatement (atKeyword_iff.2 hkind)
    (.exportDeclaration hflat.not_module.1 hdeclaration hcode hne)
  have hend : s'.kind = .endOfInput := (List.cons_eq_cons.1 hs'.kinds).1
  have hbody := Reads.cons (by simp [hkind]) (by simp [hkind]) hstatement (.nil (.inl hend))
  subst hs
  exact ⟨_, _, parse_eq_ok.2 ⟨rfl, s', hend, hbody⟩⟩

/-! ## Two lines -/

/-- The tokens of names that are set to zero are flat. -/
theorem isFlat_zeros (ns : List LocalName) :
    ∀ k ∈ Declarator.list (ns.map .zero), k.isFlat := by
  have hzero : ∀ n, ∀ k ∈ (Declarator.zero n).kinds, k.isFlat := by
    intro n k hk
    have hkinds : (Declarator.zero n).kinds = [.identifier n.name, .equal, .number "0"] := rfl
    simp only [hkinds, List.mem_cons, List.not_mem_nil, or_false] at hk
    rcases hk with rfl | rfl | rfl <;> rfl
  induction ns with
  | nil => simp [Declarator.list]
  | cons n ns ih =>
      have hcomma : ∀ k ∈ separator false (ns.map Declarator.zero).isEmpty, k.isFlat := by
        intro k hk
        unfold separator at hk
        split at hk
        · cases hk
        · rw [List.mem_singleton.1 hk]
          rfl
      rw [List.map_cons, Declarator.list]
      simp only [List.forall_mem_append]
      exact ⟨hzero n, hcomma, ih⟩

/-- The first of two lines exports its own names and, from the second line, all names but the
first. -/
theorem SyntaxTree.parse_twoLines {as bs : List LocalName} (has : as ≠ []) (hbs : bs ≠ []) :
    ∃ code span, parse (twoLines as bs) =
      .ok ⟨twoLines as bs, [.exportDeclaration ((as ++ bs.tail).map (·.name)) code span]⟩ := by
  have hlexes := lexes_twoLines has hbs
  obtain ⟨a, as, rfl⟩ := List.exists_cons_of_ne_nil has
  obtain ⟨b, bs, rfl⟩ := List.exists_cons_of_ne_nil hbs
  have hnames := boundNames_twoLines a b as bs
  rw [← List.map_append] at hnames
  refine parse_flat .«const» hlexes ?_ hnames (by simp)
  rw [List.forall_mem_append, List.forall_mem_cons]
  exact ⟨isFlat_zeros _, rfl, isFlat_zeros _⟩

namespace SyntaxTree

/-- An exported variable declaration has the names of its own patterns where every comma behind it,
in its run of code, stands inside brackets. Of two lines the first is exported with all names of the
second but its first. -/
theorem names_exportDeclaration (text : List Char) :
    (∀ {tree : SyntaxTree} {bodySpan span : Span} {body : List Statement} {names : List String}
      {c : Code} {word : VariableWord} {d : Declarator} {ds : List Declarator} {rest : List Kind},
      parse text = .ok tree → tree.BodyAt bodySpan body →
      .exportDeclaration names c span ∈ body →
      (tree.tokensIn c.span).map Token.kind =
        .keyword word.keyword :: (Declarator.list (d :: ds) ++ rest) →
      CommasEnclosed rest → names = Declarator.namesOf (d :: ds)) ∧
    ∀ as bs : List LocalName, as ≠ [] → bs ≠ [] → text = twoLines as bs → ∃ code span,
      parse text = .ok ⟨text, [.exportDeclaration ((as ++ bs.tail).map (·.name)) code span]⟩ := by
  refine ⟨fun htext hbody hst hkinds hrest => ?_, fun as bs has hbs htext => ?_⟩
  case refine_2 =>
    subst htext
    exact parse_twoLines has hbs
  obtain ⟨s, s', htokens⟩ := hbody.exists_tokens htext
  have hs := (inOrder_ofChars _).of_follows htokens.follows
  obtain ⟨s₁, s₂, hs₁, -, hread⟩ := (htokens.reads.lays hs).reads _ hst
  have hcode := hread.declarationCode (hs.of_follows hs₁)
  exact hcode.names_eq (((follows_advance s₁).trans hs₁).trans htokens.follows) hkinds hrest

/-- A declaration that a line break ends, with another one behind it. -/
def patternText : List Char :=
  "export const \x7b a, b: [c] \x7d = f(1, 2)\nlet d = (3, 4)\n".toList

/-- The declarator of `patternText` that is exported. -/
def patternDeclarator : Declarator where
  pattern := .object [.shorthand "a" none,
    .keyed (.identifier "b") (.array [.item (.name "c") none] false) none] false
  value? := some exampleCall

/-- Names of two lines. -/
def nameA : LocalName := ⟨⟨"a", by decide⟩, by decide⟩

@[inherit_doc nameA] def nameB : LocalName := ⟨⟨"b", by decide⟩, by decide⟩

@[inherit_doc nameA] def nameC : LocalName := ⟨⟨"c", by decide⟩, by decide⟩

/-- The exported names of a destructuring declaration that a line break ends are those of its
pattern; with a second line that has no comma they are those of the first. -/
theorem names_exportDeclaration_pattern :
    (∃ names, parse patternText =
        .ok ⟨patternText, [.exportDeclaration names (.mk ⟨7, 51⟩ []) ⟨0, 51⟩]⟩ ∧
      names = Declarator.namesOf [patternDeclarator]) ∧
      ∃ code span, parse (twoLines [nameA] [nameB]) =
        .ok ⟨twoLines [nameA] [nameB], [.exportDeclaration ["a"] code span]⟩ := by
  have htokens : Token.ofChars patternText =
      [⟨.keyword .«export», ⟨0, 6⟩, false⟩, ⟨.keyword .«const», ⟨7, 12⟩, false⟩,
        ⟨.leftBrace, ⟨13, 14⟩, false⟩, ⟨.identifier "a", ⟨15, 16⟩, false⟩,
        ⟨.comma, ⟨16, 17⟩, false⟩, ⟨.identifier "b", ⟨18, 19⟩, false⟩,
        ⟨.operator ":", ⟨19, 20⟩, false⟩, ⟨.leftBracket, ⟨21, 22⟩, false⟩,
        ⟨.identifier "c", ⟨22, 23⟩, false⟩, ⟨.rightBracket, ⟨23, 24⟩, false⟩,
        ⟨.rightBrace, ⟨25, 26⟩, false⟩, ⟨.equal, ⟨27, 28⟩, false⟩,
        ⟨.identifier "f", ⟨29, 30⟩, false⟩, ⟨.leftParen, ⟨30, 31⟩, false⟩,
        ⟨.number "1", ⟨31, 32⟩, false⟩, ⟨.comma, ⟨32, 33⟩, false⟩, ⟨.number "2", ⟨34, 35⟩, false⟩,
        ⟨.rightParen, ⟨35, 36⟩, false⟩, ⟨.keyword .«let», ⟨37, 40⟩, true⟩,
        ⟨.identifier "d", ⟨41, 42⟩, false⟩, ⟨.equal, ⟨43, 44⟩, false⟩,
        ⟨.leftParen, ⟨45, 46⟩, false⟩, ⟨.number "3", ⟨46, 47⟩, false⟩,
        ⟨.comma, ⟨47, 48⟩, false⟩, ⟨.number "4", ⟨49, 50⟩, false⟩,
        ⟨.rightParen, ⟨50, 51⟩, false⟩, ⟨.endOfInput, ⟨52, 52⟩, true⟩] := by
    decide +kernel
  have hparse : parse patternText = .ok ⟨patternText,
      [.exportDeclaration ["a", "c"] (.mk ⟨7, 51⟩ []) ⟨0, 51⟩]⟩ := parse_of_tokens htokens rfl
  have hkinds : ∀ body, ((⟨patternText, body⟩ : SyntaxTree).tokensIn ⟨7, 51⟩).map Token.kind =
      .keyword VariableWord.«const».keyword :: (Declarator.list [patternDeclarator] ++
        [.keyword .«let», .identifier "d", .equal, .leftParen, .number "3", .comma, .number "4",
          .rightParen]) := by
    intro body
    rw [tokensIn, htokens]
    decide
  have hnames := (names_exportDeclaration patternText).1 hparse .whole
    (List.mem_singleton_self _) (hkinds _) (by decide)
  exact ⟨⟨_, hparse, hnames⟩,
    (names_exportDeclaration _).2 [nameA] [nameB] (by simp) (by simp) rfl⟩

/-- A name of the second line is exported that is not its first. -/
theorem exists_names_of_next_line : ∃ as bs : List LocalName, as ≠ [] ∧ bs ≠ [] ∧
    ((as ++ bs).map (·.name)).Nodup ∧
      twoLines as bs = "export const a = 0\nconst b = 0, c = 0\n".toList ∧
        ¬∃ code span more, parse (twoLines as bs) =
          .ok ⟨twoLines as bs, .exportDeclaration (as.map (·.name)) code span :: more⟩ := by
  refine ⟨[nameA], [nameB, nameC], by simp, by simp, by decide, by decide, ?_⟩
  rintro ⟨code, span, more, hparse⟩
  obtain ⟨code', span', hnames⟩ :=
    parse_twoLines (List.cons_ne_nil nameA []) (List.cons_ne_nil nameB [nameC])
  rw [hparse] at hnames
  injection hnames with htree
  injection htree with htext hbody
  injection hbody with hstatement hmore
  injection hstatement with hlist
  exact absurd hlist (by decide)

end SyntaxTree

end ModuleGraph
