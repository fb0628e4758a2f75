import ModuleGraph.Proofs.Residuals

/-!
# The balance of brackets

The parser follows brackets, whatever their kind, and rejects invalid tokens wherever it follows
them. It does neither in import attributes, which end at the first closing brace. So the tokens of
an accepted source are valid and balanced if those of its import attributes are
(`SyntaxTree.balanced`).
-/

namespace ModuleGraph

open TokenStream ModuleGraph.Parser
open Token (Kind)

/-! ## Levels of brackets -/

namespace Token

/-- What a token adds to the level of brackets. -/
def Kind.rise (k : Kind) : Int :=
  if k.isOpenBracket then 1 else if k.isCloseBracket then -1 else 0

/-- The number of opening brackets less that of closing ones, of all kinds together. -/
def level : List Token → Int
  | [] => 0
  | t :: ts => t.kind.rise + level ts

@[simp] theorem level_nil : level [] = 0 := rfl

@[simp] theorem level_cons (t : Token) (ts : List Token) :
    level (t :: ts) = t.kind.rise + level ts := rfl

@[simp] theorem level_append (ts us : List Token) : level (ts ++ us) = level ts + level us := by
  induction ts with
  | nil => simp
  | cons t ts ih => simp [ih, Int.add_assoc]

/-- The tokens are valid. Read `depth` brackets deep they end `depth'` brackets deep and close no
bracket that is not open. -/
structure Nests (depth depth' : Nat) (ts : List Token) : Prop where
  valid : ∀ t ∈ ts, ∀ fault, t.kind ≠ .invalid fault
  prefixes : ∀ pre, pre <+: ts → 0 ≤ (depth : Int) + level pre
  total : (depth : Int) + level ts = depth'

/-- The tokens are valid, no leading part of them closes more brackets than it opens, and all of
them together close as many as they open. -/
def Balanced (ts : List Token) : Prop :=
  Nests 0 0 ts

namespace Nests

variable {depth depth' depth'' : Nat} {ts us : List Token} {t : Token}

/-- No tokens end as deep as they begin. -/
theorem nil (depth : Nat) : Nests depth depth [] where
  valid := by simp
  prefixes pre hpre := by simp [List.prefix_nil.1 hpre]
  total := by simp

/-- Tokens nest if a first part of them does and the others go on from the depth where it ends. -/
theorem append (hts : Nests depth depth' ts) (hus : Nests depth' depth'' us) :
    Nests depth depth'' (ts ++ us) where
  valid t ht := (List.mem_append.1 ht).elim (hts.valid t) (hus.valid t)
  prefixes pre hpre := by
    obtain ⟨rest, hrest⟩ := hpre
    obtain ⟨mid, rfl, -⟩ | ⟨mid, rfl, rfl⟩ := List.append_eq_append_iff.1 hrest
    · exact hts.prefixes pre (List.prefix_append ..)
    · have hle := hus.prefixes mid (List.prefix_append ..)
      have htotal := hts.total
      rw [level_append]
      omega
  total := by
    have htotal := hts.total
    have htotal' := hus.total
    rw [level_append]
    omega

/-- A valid token nests if it closes no bracket that is not open. -/
theorem single (hvalid : ∀ fault, t.kind ≠ .invalid fault)
    (h : (depth : Int) + t.kind.rise = depth') : Nests depth depth' [t] where
  valid := by simpa using hvalid
  prefixes pre hpre := by
    cases pre with
    | nil => simp
    | cons u pre =>
        obtain ⟨rfl, hnil⟩ := List.cons_prefix_cons.1 hpre
        rw [List.prefix_nil.1 hnil, level_cons, level_nil]
        omega
  total := by
    rw [level_cons, level_nil]
    omega

/-- Tokens nest if the first of them is valid and the others go on from the depth behind it. -/
theorem cons (hvalid : ∀ fault, t.kind ≠ .invalid fault)
    (h : (depth : Int) + t.kind.rise = depth') (hts : Nests depth' depth'' ts) :
    Nests depth depth'' (t :: ts) :=
  (single hvalid h).append hts

/-- What nests by itself nests inside brackets. -/
theorem deeper (h : Nests depth depth' ts) (n : Nat) : Nests (depth + n) (depth' + n) ts where
  valid := h.valid
  prefixes pre hpre := by
    have hle := h.prefixes pre hpre
    omega
  total := by
    have htotal := h.total
    omega

end Nests

end Token

/-! ## Import attributes -/

/-- Tokens in braces behind `with` or `assert`, up to the first closing brace. -/
def AttributesIn (group ts : List Token) : Prop :=
  ∃ pre word opening inner closing post, ts = pre ++ word :: (group ++ post) ∧
    group = opening :: inner ++ [closing] ∧ word.kind.leadsAttributes ∧
      opening.kind = .leftBrace ∧ Braceless inner ∧ closing.kind = .rightBrace

/-- Whether a statement is an import or export in clauses, which can have attributes. -/
def Statement.isClause : Statement → Bool
  | .importFrom .. | .exportNames .. | .exportAll .. => true
  | _ => false

/-- The import attributes of a source text: those of the imports and exports in its bodies, each
from its opening to its closing brace. -/
def SyntaxTree.HasAttributes (tree : SyntaxTree) (group : List Token) : Prop :=
  ∃ span body st, tree.BodyAt span body ∧ st ∈ body ∧ st.isClause = true ∧
    AttributesIn group (tree.tokensIn st.span)

/-- The tokens are balanced if their attributes are. -/
def BalancedOutside (ts : List Token) : Prop :=
  (∀ group, AttributesIn group ts → Token.Balanced group) → Token.Balanced ts

namespace AttributesIn

variable {group ts : List Token} {t : Token}

/-- Attributes of some tokens are attributes of all tokens around them. -/
theorem append (h : AttributesIn group ts) (us vs : List Token) :
    AttributesIn group (us ++ ts ++ vs) := by
  obtain ⟨pre, word, opening, inner, closing, post, rfl, hgroup, hrest⟩ := h
  exact ⟨us ++ pre, word, opening, inner, closing, post ++ vs, by simp, hgroup, hrest⟩

/-- In front of attributes stands the word that leads them. -/
theorem exists_word (h : AttributesIn group ts) : ∃ t ∈ ts, t.kind.leadsAttributes := by
  obtain ⟨pre, word, opening, inner, closing, post, rfl, -, hword, -⟩ := h
  exact ⟨word, by simp, hword⟩

/-- Attributes do not begin at a token that does not lead any. -/
theorem tail (h : AttributesIn group (t :: ts)) (ht : ¬t.kind.leadsAttributes) :
    AttributesIn group ts := by
  obtain ⟨pre, word, opening, inner, closing, post, hts, hgroup, hword, hrest⟩ := h
  cases pre with
  | nil =>
      obtain ⟨rfl, -⟩ := List.cons.inj hts
      exact absurd hword ht
  | cons u pre =>
      exact ⟨pre, word, opening, inner, closing, post, (List.cons.inj hts).2, hgroup, hword, hrest⟩

/-- The first closing brace ends the attributes. -/
theorem eq_or_tail {opening closing : Token} (inner : List Token)
    (h : AttributesIn group (t :: opening :: inner ++ closing :: ts)) (hinner : Braceless inner)
    (hclose : closing.kind = .rightBrace) :
    group = opening :: inner ++ [closing] ∨
      AttributesIn group (opening :: inner ++ closing :: ts) := by
  obtain ⟨pre, word, opening', inner', closing', post, hts, rfl, hword, hopen, hinner', hclose'⟩ :=
    h
  cases pre with
  | nil =>
      simp only [List.cons_append, List.nil_append, List.append_assoc, List.cons.injEq] at hts
      obtain ⟨-, rfl, hrest⟩ := hts
      obtain ⟨mid, rfl, -⟩ | ⟨mid, rfl, hmid⟩ := exists_of_append_eq hrest
      · exact absurd hclose' (hinner closing' (by simp))
      · cases mid with
        | nil =>
            obtain ⟨rfl, -⟩ := List.cons.inj hmid
            simp
        | cons u mid =>
            obtain ⟨rfl, -⟩ := List.cons.inj hmid
            exact absurd hclose (hinner' closing (by simp))
  | cons u pre =>
      exact .inr ⟨pre, word, opening', inner', closing', post, (List.cons.inj hts).2, rfl, hword,
        hopen, hinner', hclose'⟩

end AttributesIn

open Token (Nests)

/-- Valid tokens without brackets. -/
theorem nests_of_flat {depth : Nat} {ts : List Token}
    (h : ∀ t ∈ ts, t.kind.rise = 0 ∧ ∀ fault, t.kind ≠ .invalid fault) : Nests depth depth ts := by
  induction ts with
  | nil => exact .nil depth
  | cons t ts ih =>
      obtain ⟨hrise, hvalid⟩ := h t (List.mem_cons_self ..)
      exact .cons hvalid (by omega) (ih fun u hu => h u (List.mem_cons_of_mem _ hu))

/-- The tokens of clauses are valid and are no brackets. -/
theorem nests_of_isClausal {depth : Nat} {t : Token} (h : t.kind.isClausal = true) :
    Nests depth depth [t] := by
  refine nests_of_flat fun u hu => ?_
  obtain rfl := List.mem_singleton.1 hu
  cases hkind : u.kind <;> rw [hkind] at h <;> cases h <;> exact ⟨rfl, by simp⟩

/-- Names are valid and are no brackets. -/
theorem nests_of_named {depth : Nat} {ts : List Token} (h : Named ts) : Nests depth depth ts := by
  refine nests_of_flat fun t ht => ?_
  have hname := h t ht
  cases hkind : t.kind <;> simp [hkind, exportName?] at hname <;> exact ⟨rfl, by simp⟩

/-- Tokens in braces. -/
theorem nests_braced {depth : Nat} {opening closing : Token} {ts : List Token}
    (hopen : opening.kind = .leftBrace) (hclose : closing.kind = .rightBrace)
    (hts : Nests (depth + 1) (depth + 1) ts) :
    Nests depth depth (opening :: ts ++ [closing]) := by
  rw [List.cons_append]
  refine .cons (by simp [hopen]) ?_ (hts.append (.single (by simp [hclose]) ?_))
  · rw [hopen]
    rfl
  · rw [hclose]
    show ((depth + 1 : Nat) : Int) + -1 = depth
    omega

/-- The tokens of a clause are balanced if those of its attributes are. -/
theorem clausal_balancedOutside : Clausal BalancedOutside where
  nil _ := .nil 0
  append {ts us} hts hus h := by
    refine (hts fun group hgroup => h group ?_).append (hus fun group hgroup => h group ?_)
    · simpa using hgroup.append [] us
    · simpa using hgroup.append ts []
  single ht _ := nests_of_isClausal ht
  names hopen hclose hts _ := nests_braced hopen hclose (nests_of_named hts)
  attributes {word opening closing ts} hword hopen hclose hts h := by
    have hgroup : Token.Balanced (opening :: ts ++ [closing]) :=
      h _ ⟨[], word, opening, ts, closing, [], by simp, rfl, hword, hopen, hts, hclose⟩
    refine .cons (fun fault hkind => ?_) ?_ hgroup
    · obtain hk | hk := hword <;> simp [hk] at hkind
    · obtain hk | hk := hword <;> rw [hk] <;> rfl

/-! ## The tokens of phrases -/

/-- A statement stands in a body, or in that of a declaration there. -/
def HasStatement (body : List Statement) (st : Statement) : Prop :=
  st ∈ body ∨ ∃ d, Declares body d ∧ st ∈ d.body

namespace HasStatement

variable {body body' : List Statement} {st st' : Statement} {d : ModuleDeclaration}

/-- A statement of some declarations is a statement of any body that has them. -/
theorem mono (h : HasStatement body st) (hbody : body ⊆ body') : HasStatement body' st :=
  h.imp (fun hst => hbody hst) fun ⟨d, hd, hst⟩ => ⟨d, hd.mono hbody, hst⟩

/-- A statement of a declared module stands in the body that declares the module. -/
theorem of_declaration (hst' : st' ∈ body) (hd : d ∈ st'.modules) (h : HasStatement d.body st) :
    HasStatement body st := by
  have hhere : Declares body d := .here (List.mem_flatMap.2 ⟨st', hst', hd⟩)
  obtain h | ⟨e, he, hst⟩ := h
  · exact .inr ⟨d, hhere, h⟩
  · exact .inr ⟨e, hhere.trans he, hst⟩

end HasStatement

/-- A statement stands in a phrase. -/
def Phrase.HasStatement (st : Statement) : Phrase → Prop
  | .statements body => ModuleGraph.HasStatement body st
  | .statement st' | .exported _ st' => ModuleGraph.HasStatement [st'] st
  | .declaration _ _ _ d => ModuleGraph.HasStatement d.body st
  | .code _ _ _ _ _ modules => ∃ d ∈ modules, ModuleGraph.HasStatement d.body st

/-- Where a phrase is begun to be read: behind the token of `export`, or at `module`. -/
def Phrase.BegunAt (tree : SyntaxTree) (s : TokenStream) : Phrase → Prop
  | .exported start _ => ∃ s₀ : TokenStream, s₀.Follows (ofTokens (Token.ofChars tree.text)) ∧
      s₀.atKeyword .«export» = true ∧ start = s₀.current.span ∧ s = s₀.advance
  | .declaration .. => s.kind = .identifier "module"
  | _ => True

/-- The attributes of the imports and exports of a phrase are balanced. -/
def Phrase.AttributesBalanced (tree : SyntaxTree) (phrase : Phrase) : Prop :=
  ∀ st, phrase.HasStatement st → st.isClause = true →
    ∀ group, AttributesIn group (tree.tokensIn st.span) → Token.Balanced group

/-- Attributes are balanced in a phrase that has no statements besides those of a phrase where they
are. -/
theorem Phrase.AttributesBalanced.mono {tree : SyntaxTree} {phrase phrase' : Phrase}
    (h : phrase.AttributesBalanced tree)
    (hle : ∀ st, phrase'.HasStatement st → phrase.HasStatement st) :
    phrase'.AttributesBalanced tree :=
  fun st hst => h st (hle st hst)

/-- The tokens from one place to another lead out of all brackets. -/
def NestsBetween (depth : Nat) (s s' : TokenStream) : Prop :=
  ∃ ts, s.toList = ts ++ s'.toList ∧ Nests depth 0 ts

namespace NestsBetween

variable {depth depth' : Nat} {s s₁ s' : TokenStream}

/-- No tokens stand between a place and itself. -/
theorem refl (s : TokenStream) : NestsBetween 0 s s :=
  ⟨[], rfl, .nil 0⟩

/-- Tokens nest from a place on if the current one is valid and those behind it go on from its
depth. -/
theorem cons (hs : s.Closed) (hend : s.kind ≠ .endOfInput)
    (hvalid : ∀ fault, s.kind ≠ .invalid fault) (hdepth : (depth : Int) + s.kind.rise = depth')
    (h : NestsBetween depth' s.advance s') : NestsBetween depth s s' := by
  obtain ⟨ts, hts, hnests⟩ := h
  exact ⟨s.current :: ts, by rw [hs.toList_eq hend, hts, List.cons_append],
    .cons hvalid hdepth hnests⟩

/-- Tokens that nest up to a place may go on with others that nest from it. -/
theorem append (h : NestsBetween 0 s s₁) (h' : NestsBetween depth s₁ s') :
    NestsBetween depth s s' := by
  obtain ⟨ts, hts, hnests⟩ := h
  obtain ⟨us, hus, hnests'⟩ := h'
  refine ⟨ts ++ us, by rw [hts, hus, List.append_assoc], .append ?_ hnests'⟩
  simpa using hnests.deeper depth

end NestsBetween

section Clauses

variable {tree : SyntaxTree} {st : Statement} {s s' : TokenStream}

/-- An import or export in clauses is balanced if its attributes are. -/
theorem nests_of_clause {ts : List Token} (hs : s.Follows (ofTokens (Token.ofChars tree.text)))
    (hend : s.kind ≠ .endOfInput) (hread : Reads (.statement st) s s')
    (hts : s.advance.toList = ts ++ s'.toList) (hbalanced : BalancedOutside ts)
    (hclause : st.isClause = true)
    (hattributes : Phrase.AttributesBalanced tree (.statement st)) :
    NestsBetween 0 s.advance s' := by
  have hclosed := (inOrder_ofChars tree.text).of_follows hs
  have hall := tree.exists_tokensIn hs (hread.statement_spans hclosed)
  have htokens : tree.tokensIn st.span = s.current :: ts := by
    rw [hclosed.closed.toList_eq hend, hts, ← List.cons_append] at hall
    exact (List.append_cancel_right hall).symm
  refine ⟨ts, hts, hbalanced fun group hgroup => ?_⟩
  refine hattributes st (.inl (List.mem_singleton.2 rfl)) hclause group ?_
  rw [htokens]
  simpa using hgroup.append [s.current] []

/-- The tokens of an import declaration nest if its attributes are balanced. -/
theorem nests_importFrom {n : Nat} (hs : s.Follows (ofTokens (Token.ofChars tree.text)))
    (hat : s.atImport = true) (hread : importDeclaration n s = .ok (st, s'))
    (hattributes : Phrase.AttributesBalanced tree (.statement st)) : NestsBetween 0 s s' := by
  have horder := (inOrder_ofChars tree.text).of_follows hs
  have hkind := kind_of_atImport hat
  have hend : s.kind ≠ .endOfInput := by simp [hkind]
  obtain ⟨_, _, _, ts, rfl, -, hts, hbalanced, -⟩ :=
    span_of_importFrom clausal_balancedOutside horder.closed hat horder.ordered hread
  exact .cons horder.closed hend (by simp [hkind]) (by rw [hkind]; rfl)
    (nests_of_clause hs hend (.importFrom hat hread) hts hbalanced rfl hattributes)

/-- The tokens of an `export *` nest if its attributes are balanced. -/
theorem nests_exportAll {start : Span} (hbegun : Phrase.BegunAt tree s (.exported start st))
    (hstar : s.kind = .star) (hread : exportAllClause start s.advance = .ok (st, s'))
    (hattributes : Phrase.AttributesBalanced tree (.statement st)) : NestsBetween 0 s s' := by
  obtain ⟨s₀, hs, hat, rfl, rfl⟩ := hbegun
  have horder := (inOrder_ofChars tree.text).of_follows hs
  obtain ⟨u, hu, hstart, -, ho⟩ :
      Phrase.Begins s₀.advance (.exported s₀.current.span st) :=
    begins_exported horder.closed horder.ordered hat
  obtain ⟨_, _, _, ts, rfl, -, hts, hbalanced, -⟩ := span_of_exportAll
    (fun _ => clausal_balancedOutside)
    (fun _ t hname _ _ => nests_of_named (by simpa [Named] using .inl hname))
    horder.advance.closed hstar hu ho hstart.symm hread
  exact nests_of_clause hs (by simp [atKeyword_iff.1 hat])
    (.exportStatement hat (.exportAll hstar hread)) hts hbalanced rfl hattributes

/-- The tokens of an export of names nest if its attributes are balanced. -/
theorem nests_exportNames {n : Nat} {start : Span}
    (hbegun : Phrase.BegunAt tree s (.exported start st)) (hbrace : s.kind = .leftBrace)
    (hread : exportNamesClause n start s.advance = .ok (st, s'))
    (hattributes : Phrase.AttributesBalanced tree (.statement st)) : NestsBetween 0 s s' := by
  obtain ⟨s₀, hs, hat, rfl, rfl⟩ := hbegun
  have horder := (inOrder_ofChars tree.text).of_follows hs
  obtain ⟨u, hu, hstart, -, ho⟩ :
      Phrase.Begins s₀.advance (.exported s₀.current.span st) :=
    begins_exported horder.closed horder.ordered hat
  obtain ⟨_, _, _, ts, rfl, -, hts, hbalanced, -⟩ := span_of_exportNames
    clausal_balancedOutside horder.advance.closed hbrace hu ho hstart.symm hread
  exact nests_of_clause hs (by simp [atKeyword_iff.1 hat])
    (.exportStatement hat (.exportNames hbrace hread)) hts hbalanced rfl hattributes

end Clauses

/-- The tokens of a module declaration nest if those of its body do. -/
theorem nests_declaration {name : Option String} {s s₁ closing : TokenStream} (hs : s.Closed)
    (hkind : s.kind = .identifier "module") (hname : moduleName s.advance = (name, s₁))
    (hopen : s₁.kind = .leftBrace) (hclose : closing.kind = .rightBrace)
    (hfollows : closing.Follows s₁.advance) (h : NestsBetween 0 s₁.advance closing) :
    NestsBetween 0 s closing.advance := by
  have hs₁ := hs.of_follows (follows_moduleName hname).of_advance
  have hinside := (hs₁.of_follows (follows_advance s₁)).of_follows hfollows
  obtain ⟨ts, hts, hnests⟩ := h
  have hbraces : NestsBetween 0 s₁ closing.advance := by
    refine ⟨s₁.current :: ts ++ [closing.current], ?_,
      nests_braced hopen hclose (hnests.deeper 1)⟩
    rw [hs₁.toList_eq (by simp [hopen]), hts, hinside.toList_eq (by simp [hclose])]
    simp
  refine .cons hs (by simp [hkind]) (by simp [hkind]) (by rw [hkind]; rfl)
    (NestsBetween.append ?_ hbraces)
  unfold moduleName at hname
  cases hread : identifier? s.advance.kind with
  | none =>
      rw [hread] at hname
      cases hname
      exact .refl _
  | some text =>
      rw [hread] at hname
      cases hname
      have hpass := Passes.single (hs.of_follows (follows_advance s)) (s := s.advance)
        (kind_ne_of_read? hread rfl)
      exact ⟨_, hpass.toList_eq, nests_of_named (.of_identifier? hread)⟩

/-- The depth that the parser counts rises and falls with the brackets. -/
theorem rise_eq {depth : Nat} {k : Kind} (h : k.isCloseBracket = true → depth ≠ 0) :
    (depth : Int) + k.rise = depthAfter k depth := by
  unfold Kind.rise depthAfter
  split
  · omega
  · split
    · next hclose =>
        have hdepth := h hclose
        omega
    · omega

/-- The tokens of a phrase lead out of all brackets, if the attributes in it are balanced. The
induction is on what is read; brackets that are open before a phrase stay open all through it. -/
theorem Reads.nests {tree : SyntaxTree} {phrase : Phrase} {s s' : TokenStream}
    (h : Reads phrase s s') (hs : s.Follows (ofTokens (Token.ofChars tree.text)))
    (hbegun : phrase.BegunAt tree s) (hattributes : phrase.AttributesBalanced tree) :
    NestsBetween phrase.depth s s' := by
  have hclosed : ∀ {s : TokenStream}, s.Follows (ofTokens (Token.ofChars tree.text)) → s.Closed :=
    (closed_ofChars tree.text).of_follows
  induction h with
  | nil => exact .refl _
  | semicolon hkind _ ih =>
      exact .cons (hclosed hs) (by simp [hkind]) (by simp [hkind]) (by rw [hkind]; rfl)
        (ih ((follows_advance _).trans hs) trivial hattributes)
  | cons _ _ hstatement _ ihStatement ihBody =>
      refine .append (ihStatement hs trivial (hattributes.mono fun st hst => ?_))
        (ihBody (hstatement.follows.trans hs) trivial (hattributes.mono fun st hst => ?_))
      · exact hst.mono (by simp)
      · exact hst.mono (List.subset_cons_self ..)
  | importFrom hat hread => exact nests_importFrom hs hat hread hattributes
  | exportStatement hat hread ih =>
      have hkind := atKeyword_iff.1 hat
      exact .cons (hclosed hs) (by simp [hkind]) (by simp [hkind]) (by rw [hkind]; rfl)
        (ih ((follows_advance _).trans hs) ⟨_, hs, hat, rfl, rfl⟩ hattributes)
  | module hat hread ih =>
      exact ih hs (kind_of_atModule hat) (hattributes.mono fun st hst =>
        hst.of_declaration (List.mem_singleton.2 rfl) (List.mem_singleton.2 rfl))
  | code himport hexport hmodule hcode ih =>
      exact ih hs trivial (hattributes.mono fun st ⟨d, hd, hst⟩ =>
        hst.of_declaration (List.mem_singleton.2 rfl) hd)
  | exportModule hat hread ih =>
      exact ih hs (kind_of_atModule hat) (hattributes.mono fun st hst =>
        hst.of_declaration (List.mem_singleton.2 rfl) (List.mem_singleton.2 rfl))
  | exportAll hkind hread => exact nests_exportAll hbegun hkind hread hattributes
  | exportNames hkind hread => exact nests_exportNames hbegun hkind hread hattributes
  | exportDefault hkind hcode ih =>
      exact .cons (hclosed hs) (by simp [hkind]) (by simp [hkind]) (by rw [hkind]; rfl)
        (ih ((follows_advance _).trans hs) trivial (hattributes.mono fun st ⟨d, hd, hst⟩ =>
          hst.of_declaration (List.mem_singleton.2 rfl) hd))
  | exportDeclaration _ _ hcode _ ih =>
      exact ih hs trivial (hattributes.mono fun st ⟨d, hd, hst⟩ =>
          hst.of_declaration (List.mem_singleton.2 rfl) hd)
  | declaration hname hopen hbody hclose ih =>
      have hinside := (follows_advance _).trans (follows_moduleName hname).of_advance
      exact nests_declaration (hclosed hs) hbegun hname hopen hclose hbody.follows
        (ih (hinside.trans hs) trivial hattributes)
  | codeAtEnd | codeAtClose | codeAtStatement => exact .refl _
  | codeAtSemicolon hkind =>
      exact .cons (hclosed hs) (by simp [hkind]) (by simp [hkind]) (by rw [hkind]; rfl) (.refl _)
  | codeAtDeclaration hkind =>
      exact .cons (hclosed hs) (by simp [hkind]) (by simp [hkind]) (by rw [hkind]; rfl) (.refl _)
  | codeModule hat hmodule hcode ihModule ihCode =>
      refine .append (ihModule hs (kind_of_onModule hat) (hattributes.mono fun st hst => ?_))
        (ihCode (hmodule.follows.trans hs) trivial (hattributes.mono fun st ⟨d, hd, hst⟩ => ?_))
      · exact ⟨_, List.mem_cons_self .., hst⟩
      · exact ⟨d, List.mem_cons_of_mem _ hd, hst⟩
  | codeToken hgoes hcode ih =>
      exact .cons (hclosed hs) hgoes.unfinished hgoes.valid
        -- at the depth zero a closing bracket ends the code
        (rise_eq fun hclose hdepth => hgoes.close ⟨hdepth, hclose⟩)
        (ih ((follows_advance _).trans hs) trivial hattributes)

/-! ## Source texts -/

namespace SyntaxTree

/-- What is known of all attributes of a source holds for those of its body. -/
theorem attributesBalanced {tree : SyntaxTree}
    (h : ∀ group, tree.HasAttributes group → Token.Balanced group) :
    Phrase.AttributesBalanced tree (.statements tree.body) := by
  rintro st (hst | ⟨d, hd, hst⟩) hclause group hgroup
  · exact h group ⟨_, _, st, .whole, hst, hclause, hgroup⟩
  · exact h group ⟨_, _, st, .declared hd, hst, hclause, hgroup⟩

/-- No token of an accepted source is invalid, and its brackets balance, if the tokens of its import
attributes are valid and balance. -/
theorem balanced {text : List Char} {tree : SyntaxTree} (h : parse text = .ok tree)
    (hattributes : ∀ group, tree.HasAttributes group → Token.Balanced group) :
    Token.Balanced (Token.ofChars text) := by
  obtain ⟨rfl, s', hend, hread⟩ := parse_eq_ok.1 h
  obtain ⟨ts, hts, hnests⟩ := hread.nests (.refl _) trivial (attributesBalanced hattributes)
  have hlast := toList_of_endOfInput hread.follows hend
  rw [toList_ofTokens (ofChars_ne_nil tree.text), hlast] at hts
  have hkind : s'.current.kind = .endOfInput := hend
  rw [hts]
  exact hnests.append (.single (by simp [hkind]) (by rw [hkind]; rfl))

/-- An import with an attribute. -/
def attributeText : List Char :=
  "import \"a\" with \x7b type: \"json\" \x7d;".toList

/-- The statements of `attributeText`. -/
def attributeBody : List Statement :=
  [.importFrom (.url "a") [] ⟨0, 33⟩]

/-- A text with balanced attributes in an import, and with balanced tokens. -/
theorem balanced_attributeText : parse attributeText = .ok ⟨attributeText, attributeBody⟩ ∧
    (∀ group, HasAttributes ⟨attributeText, attributeBody⟩ group → Token.Balanced group) ∧
      Token.Balanced (Token.ofChars attributeText) := by
  have htokens : Token.ofChars attributeText =
      [⟨.keyword .«import», ⟨0, 6⟩, false⟩, ⟨.string "a", ⟨7, 10⟩, false⟩,
        ⟨.keyword .«with», ⟨11, 15⟩, false⟩, ⟨.leftBrace, ⟨16, 17⟩, false⟩,
        ⟨.identifier "type", ⟨18, 22⟩, false⟩, ⟨.operator ":", ⟨22, 23⟩, false⟩,
        ⟨.string "json", ⟨24, 30⟩, false⟩, ⟨.rightBrace, ⟨31, 32⟩, false⟩,
        ⟨.semicolon, ⟨32, 33⟩, false⟩, ⟨.endOfInput, ⟨33, 33⟩, false⟩] := by
    decide +kernel
  have hparse : parse attributeText = .ok ⟨attributeText, attributeBody⟩ :=
    parse_of_tokens htokens rfl
  have hattributes : ∀ group, HasAttributes ⟨attributeText, attributeBody⟩ group →
      Token.Balanced group := by
    rintro group ⟨span, body, st, hbody, hst, -, hgroup⟩
    have hnone : ∀ d, ¬Declares attributeBody d := by
      intro d hd
      induction hd with
      | here hd => simp [attributeBody, Statement.modules] at hd
      | inside _ _ ih => exact ih
    cases hbody with
    | declared hd => exact absurd hd (hnone _)
    | whole =>
        obtain rfl := List.mem_singleton.1 hst
        rw [tokensIn, htokens] at hgroup
        change AttributesIn group [_, _, _, _, _, _, _, _, _] at hgroup
        have hbehind := (hgroup.tail (by simp [Kind.leadsAttributes])).tail
          (by simp [Kind.leadsAttributes])
        obtain rfl | hrest := hbehind.eq_or_tail [⟨.identifier "type", ⟨18, 22⟩, false⟩,
          ⟨.operator ":", ⟨22, 23⟩, false⟩, ⟨.string "json", ⟨24, 30⟩, false⟩]
          (by simp [Braceless]) rfl
        · refine nests_braced rfl rfl (nests_of_flat ?_)
          simp [Kind.rise, Kind.isOpenBracket, Kind.isCloseBracket]
        · obtain ⟨t, ht, hword⟩ := hrest.exists_word
          simp only [List.cons_append, List.nil_append, List.mem_cons, List.not_mem_nil,
            or_false] at ht
          rcases ht with rfl | rfl | rfl | rfl | rfl | rfl <;> simp [Kind.leadsAttributes] at hword
  exact ⟨hparse, hattributes, balanced hparse hattributes⟩

/-- An import with an invalid token in its attributes. -/
def invalidAttributeText : List Char :=
  "import \"a\" with \x7b # \x7d;".toList

/-- An import with an open bracket in its attributes. -/
def openAttributeText : List Char :=
  "import \"a\" with \x7b ( \x7d;".toList

/-- Neither invalid tokens nor open brackets are found in import attributes. -/
theorem exists_not_balanced :
    parse invalidAttributeText = .ok ⟨invalidAttributeText, [.importFrom (.url "a") [] ⟨0, 22⟩]⟩ ∧
      (∃ t ∈ Token.ofChars invalidAttributeText, t.kind = .invalid (.unexpected '#')) ∧
        ¬Token.Balanced (Token.ofChars invalidAttributeText) ∧
    parse openAttributeText = .ok ⟨openAttributeText, [.importFrom (.url "a") [] ⟨0, 22⟩]⟩ ∧
      Token.level (Token.ofChars openAttributeText) = 1 ∧
        ¬Token.Balanced (Token.ofChars openAttributeText) := by
  have hinvalid : Token.ofChars invalidAttributeText =
      [⟨.keyword .«import», ⟨0, 6⟩, false⟩, ⟨.string "a", ⟨7, 10⟩, false⟩,
        ⟨.keyword .«with», ⟨11, 15⟩, false⟩, ⟨.leftBrace, ⟨16, 17⟩, false⟩,
        ⟨.invalid (.unexpected '#'), ⟨18, 19⟩, false⟩, ⟨.rightBrace, ⟨20, 21⟩, false⟩,
        ⟨.semicolon, ⟨21, 22⟩, false⟩, ⟨.endOfInput, ⟨22, 22⟩, false⟩] := by
    decide +kernel
  have hopen : Token.ofChars openAttributeText =
      [⟨.keyword .«import», ⟨0, 6⟩, false⟩, ⟨.string "a", ⟨7, 10⟩, false⟩,
        ⟨.keyword .«with», ⟨11, 15⟩, false⟩, ⟨.leftBrace, ⟨16, 17⟩, false⟩,
        ⟨.leftParen, ⟨18, 19⟩, false⟩, ⟨.rightBrace, ⟨20, 21⟩, false⟩,
        ⟨.semicolon, ⟨21, 22⟩, false⟩, ⟨.endOfInput, ⟨22, 22⟩, false⟩] := by
    decide +kernel
  have hlevel : Token.level (Token.ofChars openAttributeText) = 1 := by
    rw [hopen]
    rfl
  have hmem : ∃ t ∈ Token.ofChars invalidAttributeText, t.kind = .invalid (.unexpected '#') := by
    rw [hinvalid]
    exact ⟨⟨.invalid (.unexpected '#'), ⟨18, 19⟩, false⟩, by simp, rfl⟩
  refine ⟨parse_of_tokens hinvalid rfl, hmem, fun h => ?_, parse_of_tokens hopen rfl, hlevel,
    fun h => ?_⟩
  · obtain ⟨t, ht, hkind⟩ := hmem
    exact h.valid t ht _ hkind
  · have htotal := h.total
    rw [hlevel] at htotal
    cases htotal

end SyntaxTree

end ModuleGraph
