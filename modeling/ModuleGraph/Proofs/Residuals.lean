import Mathlib.Data.List.Pairwise
import Mathlib.Logic.ExistsUnique
import ModuleGraph.Proofs.StatementTokens

/-!
# What remains of a body

The statements of a body stand one behind the other between its braces, and each token of the body
but semicolons by themselves is in exactly one of them (`SyntaxTree.LaidOut`). So the residual text
of a body has its code and nothing else: every token of the code once, in the order of the source,
and none of an import, of an export without code or of a declared module (`SyntaxTree.HasResidual`).
-/

namespace ModuleGraph

open TokenStream ModuleGraph.Parser
open Token (Kind)

/-! ## The tokens in a span -/

/-- What satisfies the first condition stands before what satisfies the second one. -/
theorem filter_or_eq_append {α : Type} {p q : α → Bool} {l : List α}
    (h : l.Pairwise fun a b => q a = true → ¬p b = true)
    (hpq : ∀ a ∈ l, p a = true → ¬q a = true) :
    l.filter (fun a => p a || q a) = l.filter p ++ l.filter q := by
  induction l with
  | nil => rfl
  | cons a l ih =>
      obtain ⟨hbehind, hrest⟩ := List.pairwise_cons.1 h
      have ih := ih hrest fun b hb => hpq b (List.mem_cons_of_mem _ hb)
      by_cases hp : p a = true
      · have hq := hpq a (List.mem_cons_self ..) hp
        rw [List.filter_cons_of_pos (by simp [hp]), List.filter_cons_of_pos hp,
          List.filter_cons_of_neg hq, ih, List.cons_append]
      by_cases hq : q a = true
      · have hnone : l.filter p = [] := List.filter_eq_nil_iff.2 fun b hb => hbehind b hb hq
        rw [List.filter_cons_of_pos (by simp [hq]), List.filter_cons_of_neg hp,
          List.filter_cons_of_pos hq, ih, hnone]
        rfl
      · rw [List.filter_cons_of_neg (by simp [hp, hq]), List.filter_cons_of_neg hp,
          List.filter_cons_of_neg hq, ih]

/-- Only the last token of a text ends the input. -/
theorem kind_ne_endOfInput {text : List Char} {before rest : List Token}
    (h : Token.ofChars text = before ++ rest) (hrest : rest ≠ []) :
    ∀ t ∈ before, t.kind ≠ .endOfInput := by
  intro t ht
  obtain ⟨front, last, htokens, -, hfront⟩ := Token.exists_tokensFrom_eq false ⟨0, text⟩
  obtain ⟨pre, mid, rfl⟩ := List.append_of_mem ht
  rw [Token.ofChars, htokens, List.append_assoc, List.cons_append] at h
  obtain ⟨mid', rfl, -⟩ | ⟨pre', rfl, hlast⟩ := exists_of_append_eq h
  · exact hfront t (by simp)
  · cases pre' with
    | nil => simp [hrest] at hlast
    | cons u pre' => simp at hlast

/-- A span inside of one that is inside of another is inside of this. -/
theorem Span.within_trans {a b c : Span} (hab : a.within b = true) (hbc : b.within c = true) :
    a.within c = true := by
  rw [within, decide_eq_true_eq] at hab hbc ⊢
  omega

/-- No token is in two spans that stand apart. -/
theorem Span.not_within {a b t : Span} (hab : a.stop ≤ b.start) (ht : t.start < t.stop)
    (hta : t.within a = true) : ¬t.within b = true := by
  rw [within, decide_eq_true_eq] at hta ⊢
  omega

/-- The tokens in spans that stand apart, span by span. -/
theorem flatMap_filter_within {ts : List Token}
    (hts : ts.Pairwise fun t u => t.span.stop ≤ u.span.start)
    (hlt : ∀ t ∈ ts, t.span.start < t.span.stop) {spans : List Span}
    (hspans : spans.Pairwise fun a b => a.stop ≤ b.start) :
    spans.flatMap (fun span => ts.filter fun t => t.span.within span) =
      ts.filter fun t => spans.any fun span => t.span.within span := by
  induction spans with
  | nil => simp
  | cons a spans ih =>
      obtain ⟨hbehind, hrest⟩ := List.pairwise_cons.1 hspans
      have hin : ∀ {t : Token}, (spans.any fun span => t.span.within span) = true →
          t.span.start < t.span.stop → a.stop ≤ t.span.start := by
        intro t hany ht
        obtain ⟨b, hb, hwithin⟩ := List.any_eq_true.1 hany
        rw [Span.within, decide_eq_true_eq] at hwithin
        exact Nat.le_trans (hbehind b hb) hwithin.1
      have hnot : ∀ {t : Token}, t.span.start < t.span.stop → a.stop ≤ t.span.start →
          ¬t.span.within a = true := by
        intro t ht hstop
        rw [Span.within, decide_eq_true_eq]
        omega
      simp only [List.flatMap_cons, List.any_cons]
      rw [ih hrest, filter_or_eq_append]
      · refine hts.imp_of_mem fun {t u} ht hu htu hany => hnot (hlt u hu) ?_
        have hstop := hin hany (hlt t ht)
        have hle := hlt t ht
        omega
      · exact fun t ht hwithin hany => hnot (hlt t ht) (hin hany (hlt t ht)) hwithin

namespace SyntaxTree

/-- The tokens of a text in a span, without the end of the input. -/
def tokensIn (tree : SyntaxTree) (span : Span) : List Token :=
  (Token.ofChars tree.text).filter fun t => t.kind != .endOfInput && t.span.within span

variable {tree : SyntaxTree} {span : Span} {s s' : TokenStream} {ts : List Token}

/-- The tokens up to a place that are in a span which no token before them reaches. -/
theorem tokensIn_eq (hs : s.Follows (ofTokens (Token.ofChars tree.text)))
    (hbefore : ∀ before, Token.ofChars tree.text = before ++ s.toList →
      ∀ t ∈ before, t.span.stop ≤ span.start)
    (hstart : span.start ≤ s.current.span.start) (hsplit : s.toList = ts ++ s'.toList)
    (hreaches : span.Reaches ts s') : tree.tokensIn span = ts := by
  have horder := (inOrder_ofChars tree.text).of_follows hs
  obtain ⟨before, htokens⟩ := hs
  rw [toList_ofTokens (ofChars_ne_nil tree.text)] at htokens
  have hordered := ordered_ofChars tree.text
  rw [toList_ofTokens (ofChars_ne_nil tree.text), ← htokens] at hordered
  have hstands : ∀ t ∈ before ++ s.toList, t.kind ≠ .endOfInput → t.span.start < t.span.stop :=
    hordered.lt
  -- three parts of the tokens: those in front of `span`, those within it, those behind it
  have hfirst : ∀ t ∈ before, ¬(t.kind != .endOfInput && t.span.within span) = true := by
    intro t ht hin
    rw [Bool.and_eq_true, bne_iff_ne, Span.within, decide_eq_true_eq] at hin
    have hlt := hstands t (List.mem_append_left _ ht) hin.1
    have hle := hbefore before htokens.symm t ht
    omega
  have hmiddle : ∀ t ∈ ts, (t.kind != .endOfInput && t.span.within span) = true := by
    intro t ht
    have hmem : t ∈ s.toList := hsplit ▸ List.mem_append_left _ ht
    have hlast : t.kind ≠ .endOfInput := by
      rw [hsplit, ← List.append_assoc] at htokens
      exact kind_ne_endOfInput htokens.symm (List.cons_ne_nil _ _) t (List.mem_append_right _ ht)
    rw [Bool.and_eq_true, bne_iff_ne, Span.within, decide_eq_true_eq]
    exact ⟨hlast, Nat.le_trans hstart (horder.start_le hmem), hreaches.le t ht⟩
  have hbehind : ∀ t ∈ s'.toList, ¬(t.kind != .endOfInput && t.span.within span) = true := by
    intro t ht hin
    rw [Bool.and_eq_true, bne_iff_ne, Span.within, decide_eq_true_eq] at hin
    have hmem : t ∈ s.toList := hsplit ▸ List.mem_append_right _ ht
    have hlt := hstands t (List.mem_append_right _ hmem) hin.1
    have hle := (horder.of_follows ⟨ts, hsplit.symm⟩).start_le ht
    have hlimit := hreaches.limit
    omega
  rw [tokensIn, ← htokens, hsplit, List.filter_append, List.filter_append,
    List.filter_eq_nil_iff.2 hfirst, List.filter_eq_self.2 hmiddle,
    List.filter_eq_nil_iff.2 hbehind, List.nil_append, List.append_nil]

/-- The tokens of a span stand at its place among those of the text. -/
theorem exists_tokensIn (hs : s.Follows (ofTokens (Token.ofChars tree.text)))
    (h : s.Spans s' span) : s.toList = tree.tokensIn span ++ s'.toList := by
  obtain ⟨hstart, ts, hts, hreaches⟩ := h
  have horder := inOrder_ofChars tree.text
  have hin : tree.tokensIn span = ts := by
    refine tokensIn_eq hs (fun before hbefore t ht => ?_) (Nat.le_of_eq hstart) hts hreaches
    rw [hstart]
    have hall : (ofTokens (Token.ofChars tree.text)).toList = before ++ s.toList :=
      (toList_ofTokens (ofChars_ne_nil tree.text)).trans hbefore
    exact horder.stop_le hall ht
  rw [hin, hts]

end SyntaxTree

/-! ## Bodies in their places -/

/-- The bodies of a source text, each with the span of its statements: the whole text, or what
stands between the braces of a declaration. -/
inductive SyntaxTree.BodyAt (tree : SyntaxTree) : Span → List Statement → Prop where
  | whole : BodyAt tree ⟨0, Text.byteLength tree.text⟩ tree.body
  | declared {d : ModuleDeclaration} (hd : Declares tree.body d) : BodyAt tree d.bodySpan d.body

/-- The statements of a body are read from the tokens of its span. -/
structure BodyTokens (tree : SyntaxTree) (span : Span) (body : List Statement)
    (s s' : TokenStream) : Prop where
  follows : s.Follows (ofTokens (Token.ofChars tree.text))
  reads : Reads (.statements body) s s'
  tokens : s.toList = tree.tokensIn span ++ s'.toList
  start : span.start ≤ s.current.span.start
  stop : s'.current.span.start = span.stop

/-- The body of a declaration is between two braces: the last one is the last token of the
declaration. -/
def SyntaxTree.Braced (tree : SyntaxTree) (d : ModuleDeclaration) : Prop :=
  ∃ opening ∈ tree.tokensIn d.span, ∃ closing ∈ tree.tokensIn d.span,
    opening.kind = .leftBrace ∧ closing.kind = .rightBrace ∧ closing.span.stop = d.span.stop ∧
      d.bodySpan = ⟨opening.span.stop, closing.span.start⟩

/-- The tokens of a declaration around its body. -/
structure DeclarationRead (d : ModuleDeclaration) (s opening closing : TokenStream) : Prop extends
    BodyRead d s opening closing where
  start : d.span.start ≤ opening.current.span.start
  stop : d.span.stop = closing.current.span.stop

/-- The tokens of a declaration that was read behind a place stand around its body. -/
theorem DeclaredBehind.exists_read {d : ModuleDeclaration} {s : TokenStream}
    (h : DeclaredBehind d s) (hs : s.InOrder) :
    ∃ opening closing, DeclarationRead d s opening closing := by
  obtain ⟨start, exported, placement, s₀, s₂, hs₀, ⟨-, hstart, hstop⟩, hread⟩ := h
  cases hread with
  | @declaration _ _ _ _ s₁ closing name body hname hopen hbody hclose =>
      have hopening : s₁.Follows s₀ := (follows_moduleName hname).of_advance
      have hclosing : closing.Follows s₀ := hbody.follows.of_advance.trans hopening
      have hs' := hs.of_follows hs₀
      have hle := hs'.ordered.le_of_follows hclosing
      refine ⟨s₁, closing, ⟨hopening.trans hs₀, hopen, hclose, rfl, hbody⟩, ?_, ?_⟩
      · have hfirst := (hs'.ordered.le_of_follows hopening).1
        exact Nat.le_trans (Nat.min_le_left ..) (Nat.le_trans hstart hfirst)
      · exact Nat.max_eq_right (Nat.le_trans hstop hle.2)

/-- Every declaration at any depth is read behind the start of the bodies around it. -/
theorem Reads.declaredBehind {body : List Statement} {d : ModuleDeclaration} {s s' : TokenStream}
    (h : Reads (.statements body) s s') (hs : s.InOrder) (hd : Declares body d) :
    DeclaredBehind d s := by
  have hhere : ∀ {body : List Statement} {d : ModuleDeclaration} {s₁ s₂ : TokenStream},
      s₁.Follows s → Reads (.statements body) s₁ s₂ → d ∈ body.flatMap Statement.modules →
      DeclaredBehind d s := by
    intro body d s₁ s₂ hs₁ hbody hd
    obtain ⟨st, hst, hd⟩ := List.mem_flatMap.1 hd
    obtain ⟨s₃, s₄, hs₃, -, hread⟩ := (hbody.lays (hs.of_follows hs₁)).reads st hst
    have hbehind := hread.declaredBehind_of_mem (hs.of_follows (hs₃.trans hs₁)) hd
    exact hbehind.of_follows (hs₃.trans hs₁)
  induction hd with
  | here hmem => exact hhere (.refl s) h hmem
  | inside _ hmem ih =>
      obtain ⟨opening, closing, houter⟩ := ih.exists_read hs
      exact hhere ((follows_advance opening).trans houter.follows) houter.reads hmem

/-- The tokens of a declaration that stands in statements stand around its body. -/
theorem Reads.exists_read {body : List Statement} {d : ModuleDeclaration} {s s' : TokenStream}
    (h : Reads (.statements body) s s') (hs : s.InOrder) (hd : Declares body d) :
    ∃ opening closing, DeclarationRead d s opening closing :=
  (h.declaredBehind hs hd).exists_read hs

/-- The body of a declaration is between two of its braces, the second of which is its last
token. -/
theorem DeclarationRead.braced {tree : SyntaxTree} {d : ModuleDeclaration}
    {opening closing : TokenStream}
    (h : DeclarationRead d (ofTokens (Token.ofChars tree.text)) opening closing) :
    tree.Braced d := by
  have hs := inOrder_ofChars tree.text
  have hclosing : closing.Follows opening := h.reads.follows.of_advance
  have hle := (hs.of_follows h.follows).ordered.le_of_follows hclosing
  have hopen := (hs.of_follows h.follows).current_le
  have hmem : ∀ {s : TokenStream}, s.Follows (ofTokens (Token.ofChars tree.text)) →
      s.kind ≠ .endOfInput → d.span.start ≤ s.current.span.start →
      s.current.span.stop ≤ d.span.stop → s.current ∈ tree.tokensIn d.span := by
    intro s hfollows hkind hstart hstop
    have htoken : s.current ∈ Token.ofChars tree.text := by
      rw [← toList_ofTokens (ofChars_ne_nil tree.text)]
      exact hfollows.subset (List.mem_cons_self ..)
    refine List.mem_filter.2 ⟨htoken, ?_⟩
    rw [Bool.and_eq_true, bne_iff_ne, Span.within, decide_eq_true_eq]
    exact ⟨hkind, hstart, hstop⟩
  have hstart := h.start
  have hstop := h.stop
  refine ⟨opening.current, hmem h.follows (by simp [h.opening_kind]) hstart (by omega),
    closing.current, hmem (hclosing.trans h.follows) (by simp [h.closing_kind]) (by omega)
    (by omega), h.opening_kind, h.closing_kind, hstop.symm, h.span⟩

/-- The statements of a declaration are read from the tokens between its braces. -/
theorem DeclarationRead.bodyTokens {tree : SyntaxTree} {d : ModuleDeclaration}
    {opening closing : TokenStream}
    (h : DeclarationRead d (ofTokens (Token.ofChars tree.text)) opening closing) :
    BodyTokens tree d.bodySpan d.body opening.advance closing := by
  have hs := inOrder_ofChars tree.text
  have hopening := hs.of_follows h.follows
  have hend : opening.kind ≠ .endOfInput := by simp [h.opening_kind]
  have hinside := (follows_advance opening).trans h.follows
  obtain ⟨ts, hts⟩ := h.reads.follows
  have hin : tree.tokensIn d.bodySpan = ts := by
    rw [h.span]
    refine tree.tokensIn_eq hinside (fun before hbefore t ht => ?_) (hopening.le_advance hend)
      hts.symm ⟨fun t ht => hopening.advance.stop_le hts.symm ht, Nat.le_refl _⟩
    -- the tokens before the body are those up to the opening brace
    obtain ⟨front, hfront⟩ := h.follows
    have hall : front ++ opening.toList = Token.ofChars tree.text :=
      hfront.trans (toList_ofTokens (ofChars_ne_nil tree.text))
    rw [hbefore, hopening.closed.toList_eq hend, List.append_cons] at hall
    rw [← List.append_cancel_right hall, List.mem_append, List.mem_singleton] at ht
    obtain ht | rfl := ht
    · exact Nat.le_trans (hs.stop_le hfront.symm ht) hopening.current_le
    · exact Nat.le_refl _
  refine ⟨hinside, h.reads, by rw [hin, hts], ?_, by rw [h.span]⟩
  rw [h.span]
  exact hopening.le_advance hend

/-- The statements of a whole text are read from all of its tokens. -/
theorem bodyTokens_whole {tree : SyntaxTree} {s' : TokenStream}
    (hread : Reads (.statements tree.body) (ofTokens (Token.ofChars tree.text)) s')
    (hend : s'.kind = .endOfInput) :
    BodyTokens tree ⟨0, Text.byteLength tree.text⟩ tree.body
      (ofTokens (Token.ofChars tree.text)) s' := by
  have hs := inOrder_ofChars tree.text
  have hlist := toList_ofTokens (ofChars_ne_nil tree.text)
  have hstop : s'.current.span.start = Text.byteLength tree.text := by
    have hmem : s'.current ∈ Token.ofChars tree.text :=
      hlist ▸ hread.follows.subset (List.mem_cons_self ..)
    rw [Token.span_of_endOfInput hmem hend]
    exact Nat.zero_add _
  obtain ⟨ts, hts⟩ := hread.follows
  have hin : tree.tokensIn ⟨0, Text.byteLength tree.text⟩ = ts := by
    refine tree.tokensIn_eq (.refl _) (fun before hbefore t ht => ?_) (Nat.zero_le _) hts.symm
      ⟨fun t ht => hstop ▸ hs.stop_le hts.symm ht, Nat.le_of_eq hstop.symm⟩
    rw [hlist, List.self_eq_append_left] at hbefore
    simp [hbefore] at ht
  exact ⟨.refl _, hread, by rw [hin, hts], Nat.zero_le _, hstop⟩

namespace SyntaxTree

variable {tree : SyntaxTree} {span : Span} {body : List Statement} {s s' : TokenStream}

/-- The statements of every body are read from the tokens of its span. -/
theorem BodyAt.exists_tokens {text : List Char} (h : parse text = .ok tree)
    (hbody : tree.BodyAt span body) : ∃ s s', BodyTokens tree span body s s' := by
  obtain ⟨rfl, s', hend, hread⟩ := parse_eq_ok.1 h
  cases hbody with
  | whole => exact ⟨_, s', bodyTokens_whole hread hend⟩
  | declared hd =>
      obtain ⟨opening, closing, hdeclaration⟩ := hread.exists_read (inOrder_ofChars tree.text) hd
      exact ⟨_, _, hdeclaration.bodyTokens⟩

/-! ## The statements of a body -/

/-- The statements of a body stand one behind the other in its span. A token of the body is in
exactly one of them, unless it is a semicolon in none. The code of a statement is inside of it, and
the modules inside the code stand one behind the other there. -/
structure LaidOut (tree : SyntaxTree) (span : Span) (body : List Statement) : Prop where
  ordered : body.Pairwise fun a b => a.span.stop ≤ b.span.start
  inside : ∀ st ∈ body, st.span.start < st.span.stop ∧ st.span.within span = true
  tokens : ∀ t ∈ tree.tokensIn span,
    (∃! st, st ∈ body ∧ t.span.within st.span = true) ∨ t.kind = .semicolon ∧
      ∀ st ∈ body, t.span.stop ≤ st.span.start ∨ st.span.stop ≤ t.span.start
  code : ∀ st ∈ body, ∀ c, st.code? = some c → c.span.within st.span = true ∧
    c.inlineModules.Pairwise (fun d e => d.span.stop ≤ e.span.start) ∧
      ∀ d ∈ c.inlineModules, d.span.start < d.span.stop ∧ d.span.within c.span = true

/-- Of two statements of a body one is behind the other. -/
theorem eq_or_apart {a b : Statement}
    (hordered : body.Pairwise fun a b => a.span.stop ≤ b.span.start) (ha : a ∈ body)
    (hb : b ∈ body) : a = b ∨ a.span.stop ≤ b.span.start ∨ b.span.stop ≤ a.span.start := by
  refine List.Pairwise.forall_of_forall_of_flip
    (R := fun a b : Statement => a = b ∨ a.span.stop ≤ b.span.start ∨ b.span.stop ≤ a.span.start)
    (fun _ _ => .inl rfl) (hordered.imp fun hab => .inr (.inl hab))
    (hordered.imp fun hab => .inr (.inr hab)) ha hb

/-- Statements that are read from the tokens of a span are laid out in it. -/
theorem LaidOut.of_tokens (h : BodyTokens tree span body s s') : tree.LaidOut span body := by
  have hs := (inOrder_ofChars tree.text).of_follows h.follows
  obtain ⟨hordered, hbetween, ⟨ts, hts, htokens⟩, hreads⟩ := h.reads.lays hs
  -- the tokens that the statements are read from are those in the span of the body
  obtain rfl : tree.tokensIn span = ts := List.append_cancel_right (h.tokens.symm.trans hts)
  have hstart := h.start
  have hstop := h.stop
  refine ⟨hordered, fun st hst => ?_, fun t ht => ?_, fun st hst c hc => ?_⟩
  · obtain ⟨hfirst, hlt, hlast⟩ := hbetween st hst
    exact ⟨hlt, decide_eq_true ⟨by omega, by omega⟩⟩
  · refine (htokens t ht).imp_left fun ⟨st, hst, hwithin⟩ => ⟨st, ⟨hst, hwithin⟩, ?_⟩
    have hlt : t.span.start < t.span.stop := by
      refine hs.ordered.lt t (hts ▸ List.mem_append_left _ ht) ?_
      have hin := (List.mem_filter.1 ht).2
      rw [Bool.and_eq_true, bne_iff_ne] at hin
      exact hin.1
    rintro st' ⟨hst', hwithin'⟩
    obtain heq | hapart | hapart := eq_or_apart hordered hst' hst
    · exact heq
    · exact absurd hwithin (Span.not_within hapart hlt hwithin')
    · exact absurd hwithin' (Span.not_within hapart hlt hwithin)
  · obtain ⟨s₁, s₂, hs₁, -, hread⟩ := hreads st hst
    have hs₁' := hs.of_follows hs₁
    obtain ⟨s₃, hwithin, ⟨lead, hlead, -⟩, _, final, modules, rfl, hcode⟩ :=
      hread.exists_code hs₁' hc
    have hmodules : ModulesApart s₃ final modules :=
      hcode.modulesApart (hs₁'.of_follows ⟨lead, hlead.symm⟩)
    refine ⟨hwithin, hmodules.apart, fun d hd => ?_⟩
    obtain ⟨hfirst, hlt, hlast⟩ := hmodules.between d hd
    exact ⟨hlt, decide_eq_true ⟨Nat.le_trans (Nat.min_le_left ..) hfirst,
      Nat.le_trans hlast (Nat.le_max_right ..)⟩⟩

/-! ## The residual text of a body -/

/-- The residual text of a body is its code, in the order of the source: all tokens of the body that
are in code, each once. A statement with code has only its lead words before its code, and one
without code shares no text with it. -/
structure HasResidual (tree : SyntaxTree) (span : Span) (body : List Statement) (b : Body) :
    Prop where
  text : b.residual = "\n".intercalate ((body.filterMap Statement.code?).map fun c =>
    String.ofList (Text.slice tree.text c.span))
  ordered : (body.filterMap Statement.code?).Pairwise fun c c' => c.span.stop ≤ c'.span.start
  tokens : (body.filterMap Statement.code?).flatMap (fun c => tree.tokensIn c.span) =
    (tree.tokensIn span).filter fun t =>
      (body.filterMap Statement.code?).any fun c => t.span.within c.span
  leads : ∀ st ∈ body, ∀ c, st.code? = some c → ∃ lead,
    tree.tokensIn st.span = lead ++ tree.tokensIn c.span ∧ lead.map Token.kind = st.leadWords
  others : ∀ st ∈ body, st.code? = none → ∀ c ∈ body.filterMap Statement.code?,
    c.span.stop ≤ st.span.start ∨ st.span.stop ≤ c.span.start

/-- The code of a body stands in order. -/
theorem LaidOut.ordered_code (h : tree.LaidOut span body) :
    (body.filterMap Statement.code?).Pairwise fun c c' => c.span.stop ≤ c'.span.start := by
  refine List.pairwise_filterMap.2 (h.ordered.imp_of_mem fun {a b} ha hb hab c hc c' hc' => ?_)
  have hwithin := (h.code a ha c hc).1
  have hwithin' := (h.code b hb c' hc').1
  rw [Span.within, decide_eq_true_eq] at hwithin hwithin'
  omega

/-- The tokens in the code of the statements, one statement after the other. -/
theorem LaidOut.flatMap_tokensIn (h : tree.LaidOut span body) :
    (body.filterMap Statement.code?).flatMap (fun c => tree.tokensIn c.span) =
      (tree.tokensIn span).filter fun t =>
        (body.filterMap Statement.code?).any fun c => t.span.within c.span := by
  have hordered := ordered_ofChars tree.text
  rw [toList_ofTokens (ofChars_ne_nil tree.text)] at hordered
  obtain ⟨ts, hall, hts, hlt⟩ : ∃ ts : List Token,
      (∀ span, tree.tokensIn span = ts.filter fun t => t.span.within span) ∧
        ts.Pairwise (fun t u => t.span.stop ≤ u.span.start) ∧
          ∀ t ∈ ts, t.span.start < t.span.stop := by
    refine ⟨(Token.ofChars tree.text).filter fun t => t.kind != .endOfInput, fun span => ?_,
      hordered.apart.sublist List.filter_sublist, fun t ht => ?_⟩
    · rw [tokensIn, List.filter_filter]
      simp only [Bool.and_comm]
    · obtain ⟨ht, hkind⟩ := List.mem_filter.1 ht
      exact hordered.lt t ht (bne_iff_ne.1 hkind)
  have hcodes := flatMap_filter_within hts hlt (List.pairwise_map.2 h.ordered_code)
  simp only [List.flatMap_map, List.any_map, Function.comp_def] at hcodes
  simp only [hall]
  rw [hcodes, List.filter_filter]
  refine List.filter_congr fun t _ => ?_
  -- a token in code is in the body
  rw [Bool.eq_iff_iff, Bool.and_eq_true, iff_self_and, List.any_eq_true]
  rintro ⟨c, hc, hwithin⟩
  obtain ⟨st, hst, hcode⟩ := List.mem_filterMap.1 hc
  exact Span.within_trans hwithin (Span.within_trans (h.code st hst c hcode).1 (h.inside st hst).2)

/-- What remains of statements that are read from the tokens of a span is their code. -/
theorem HasResidual.of_tokens (path : FragmentPath) (h : BodyTokens tree span body s s') :
    tree.HasResidual span body (Body.ofStatements tree.text path body) := by
  have hlaid := LaidOut.of_tokens h
  have hs := (inOrder_ofChars tree.text).of_follows h.follows
  refine ⟨rfl, hlaid.ordered_code, hlaid.flatMap_tokensIn, fun st hst c hc => ?_,
    fun st hst hnone c hc => ?_⟩
  · obtain ⟨s₁, s₂, hs₁, -, hread⟩ := (h.reads.lays hs).reads st hst
    have hs₁' := hs.of_follows hs₁
    obtain ⟨s₃, -, ⟨lead, hlead, hwords⟩, _, final, modules, rfl, hcode⟩ :=
      hread.exists_code hs₁' hc
    have hs₃ : s₃.Follows s₁ := ⟨lead, hlead.symm⟩
    have hall := tree.exists_tokensIn (hs₁.trans h.follows) (hread.statement_spans hs₁')
    have hcodeTokens := tree.exists_tokensIn ((hs₃.trans hs₁).trans h.follows)
      (hcode.code_spans (hs₁'.of_follows hs₃))
    have hsplit : tree.tokensIn st.span ++ s₂.toList =
        lead ++ tree.tokensIn (s₃.current.span.cover final) ++ s₂.toList := by
      rw [← hall, List.append_assoc, ← hcodeTokens, hlead]
    exact ⟨lead, List.append_cancel_right hsplit, hwords⟩
  · obtain ⟨st', hst', hc⟩ := List.mem_filterMap.1 hc
    have hwithin := (hlaid.code st' hst' c hc).1
    rw [Span.within, decide_eq_true_eq] at hwithin
    obtain rfl | hapart := eq_or_apart hlaid.ordered hst' hst
    · simp [hnone] at hc
    · omega

/-- The statements of every body of a source text stand one behind the other between its braces, all
tokens but semicolons by themselves are in exactly one of them, and what remains of an extracted
body is the text of its code. -/
theorem laidOut {text : List Char} (h : parse text = .ok tree) :
    (∀ span body, tree.BodyAt span body → tree.LaidOut span body) ∧
      (∀ d, Declares tree.body d → tree.Braced d) ∧
        ∀ r, Resource.ofTree tree = .ok r →
          tree.HasResidual ⟨0, Text.byteLength text⟩ tree.body r.root ∧
            ∀ f ∈ r.fragments, ∃ d, Declares tree.body d ∧ f.span = d.span ∧
              tree.HasResidual d.bodySpan d.body f.body := by
  obtain ⟨rfl, s', hend, hread⟩ := parse_eq_ok.1 h
  have hs := inOrder_ofChars tree.text
  refine ⟨fun span body hbody => ?_, fun d hd => ?_, fun r hr => ⟨?_, fun f hf => ?_⟩⟩
  · obtain ⟨s, s', htokens⟩ := hbody.exists_tokens h
    exact .of_tokens htokens
  · obtain ⟨opening, closing, hdeclaration⟩ := hread.exists_read hs hd
    exact hdeclaration.braced
  · rw [(Resource.ofTree_eq_ok hr).1]
    exact .of_tokens [] (bodyTokens_whole hread hend)
  · obtain ⟨d, hd, hf⟩ := (Resource.ofTree_eq_ok hr).2 f hf
    obtain ⟨opening, closing, hdeclaration⟩ := hread.exists_read hs hd
    refine ⟨d, hd, hf.span, ?_⟩
    rw [hf.body]
    exact .of_tokens f.path hdeclaration.bodyTokens

/-- An import, a default export with a module inside, a semicolon by itself and a module. -/
def mixedText : List Char :=
  "import x from \"y\"\nexport default f(module \x7b g \x7d);;module a \x7b h \x7d".toList

/-- The statements of `mixedText`. -/
def mixedBody : List Statement :=
  [.importFrom (.url "y") [.default "x"] ⟨0, 17⟩,
    .exportDefault defaultLocal
      (.mk ⟨33, 49⟩ [.mk none false .nested [.code (.mk ⟨44, 45⟩ [])] ⟨35, 47⟩ ⟨43, 46⟩]) ⟨18, 49⟩,
    .module (.mk (some "a") false .statement [.code (.mk ⟨61, 62⟩ [])] ⟨50, 64⟩ ⟨60, 63⟩)]

/-- What remains of the text with statements of all kinds is the code of its default export. -/
theorem laidOut_mixed : parse mixedText = .ok ⟨mixedText, mixedBody⟩ ∧
    (⟨mixedText, mixedBody⟩ : SyntaxTree).LaidOut ⟨0, 64⟩ mixedBody ∧
      ∃ r, Resource.ofTree ⟨mixedText, mixedBody⟩ = .ok r ∧
        r.root.residual = "f(module \x7b g \x7d);" ∧
          (⟨mixedText, mixedBody⟩ : SyntaxTree).HasResidual ⟨0, 64⟩ mixedBody r.root := by
  have htokens : Token.ofChars mixedText =
      [⟨.keyword .«import», ⟨0, 6⟩, false⟩, ⟨.identifier "x", ⟨7, 8⟩, false⟩,
        ⟨.identifier "from", ⟨9, 13⟩, false⟩, ⟨.string "y", ⟨14, 17⟩, false⟩,
        ⟨.keyword .«export», ⟨18, 24⟩, true⟩, ⟨.keyword .«default», ⟨25, 32⟩, false⟩,
        ⟨.identifier "f", ⟨33, 34⟩, false⟩, ⟨.leftParen, ⟨34, 35⟩, false⟩,
        ⟨.identifier "module", ⟨35, 41⟩, false⟩, ⟨.leftBrace, ⟨42, 43⟩, false⟩,
        ⟨.identifier "g", ⟨44, 45⟩, false⟩, ⟨.rightBrace, ⟨46, 47⟩, false⟩,
        ⟨.rightParen, ⟨47, 48⟩, false⟩, ⟨.semicolon, ⟨48, 49⟩, false⟩,
        ⟨.semicolon, ⟨49, 50⟩, false⟩, ⟨.identifier "module", ⟨50, 56⟩, false⟩,
        ⟨.identifier "a", ⟨57, 58⟩, false⟩, ⟨.leftBrace, ⟨59, 60⟩, false⟩,
        ⟨.identifier "h", ⟨61, 62⟩, false⟩, ⟨.rightBrace, ⟨63, 64⟩, false⟩,
        ⟨.endOfInput, ⟨64, 64⟩, false⟩] := by
    decide +kernel
  have hparse : parse mixedText = .ok ⟨mixedText, mixedBody⟩ := parse_of_tokens htokens rfl
  obtain ⟨hlaid, -, hextracted⟩ := laidOut hparse
  obtain ⟨r, hr, hresidual⟩ : ∃ r, Resource.ofTree ⟨mixedText, mixedBody⟩ = .ok r ∧
      r.root.residual = "f(module \x7b g \x7d);" := ⟨_, rfl, by decide +kernel⟩
  exact ⟨hparse, hlaid _ _ .whole, r, hr, hresidual, (hextracted r hr).1⟩

end SyntaxTree

end ModuleGraph
