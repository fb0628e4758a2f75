import ModuleGraph.Proofs.ClauseTokens

/-!
# The spans of statements

Tokens stand in order, so that a statement spans the tokens it is read from: an import or export
starts with its first word (`Reads.exported_leads`), code with its first token (`Reads.code_span`),
and a module declaration ends with its closing brace (`Reads.declaration_span`).
-/

namespace ModuleGraph

open TokenStream
open ModuleGraph.Parser

/-- The word that an import or export starts with. -/
def Statement.keyword? : Statement → Option Keyword
  | .importFrom .. => some .«import»
  | .exportNames .. | .exportAll .. | .exportDeclaration .. | .exportDefault .. =>
    some .«export»
  | .module d => if d.exported then some .«export» else none
  | .code _ => none

/-! ## The order of tokens -/

namespace Token.Ordered

variable {ts front : List Token} {t u last : Token} {s s' : TokenStream}

/-- No token of a row starts or stops behind the last one. -/
theorem le_last (h : Token.Ordered (front ++ [last])) (ht : t ∈ front ++ [last]) :
    t.span.start ≤ last.span.start ∧ t.span.stop ≤ last.span.stop := by
  rcases List.mem_append.1 ht with hfront | hlast
  · have hapart := (List.pairwise_append.1 h.apart).2.2 t hfront last (List.mem_singleton.2 rfl)
    have hle := h.le t ht
    have hle' := h.le last (by simp)
    omega
  · rw [List.mem_singleton.1 hlast]
    exact ⟨Nat.le_refl _, Nat.le_refl _⟩

/-- The first token of a row stops before the others start. -/
theorem le_of_cons (h : Token.Ordered (u :: ts)) (ht : t ∈ ts) :
    u.span.stop ≤ t.span.start :=
  (List.pairwise_cons.1 h.apart).1 t ht

/-- The tokens from a later place on are in order, too. -/
theorem of_follows (h : Token.Ordered s.toList) (hs : s'.Follows s) : Token.Ordered s'.toList :=
  h.sublist hs.sublist

/-- A later token starts and stops no earlier. -/
theorem le_of_follows (h : Token.Ordered s.toList) (hs : s'.Follows s) :
    s.current.span.start ≤ s'.current.span.start ∧ s.current.span.stop ≤ s'.current.span.stop := by
  obtain ⟨pre, hpre⟩ := hs
  cases pre with
  | nil =>
      have hcurrent : s'.current = s.current := (List.cons.inj hpre).1
      rw [hcurrent]
      exact ⟨Nat.le_refl _, Nat.le_refl _⟩
  | cons u pre =>
      obtain ⟨rfl, htail⟩ := List.cons.inj hpre
      have hmem : s'.current ∈ s.ahead := by
        rw [← htail]
        exact List.mem_append_right _ (List.mem_cons_self ..)
      have hstop := h.le_of_cons hmem
      have hle := h.le s.current (List.mem_cons_self ..)
      have hle' := h.le s'.current (List.mem_cons_of_mem _ hmem)
      omega

end Token.Ordered

/-- The tokens of a text are in order. -/
theorem ordered_ofChars (text : List Char) :
    Token.Ordered (ofTokens (Token.ofChars text)).toList := by
  rw [toList_ofTokens (ofChars_ne_nil text)]
  exact (Token.ordered_tokensFrom false ⟨0, text⟩).1

/-! ## Module declarations and runs of code -/

/-- Where a phrase is begun to be read. The token before the current one is that of `export`, and a
module declaration begins with it or with the current one. -/
def Phrase.Begins (s : TokenStream) : Phrase → Prop
  | .exported start _ =>
    ∃ u, s.previous = some u ∧ u.span = start ∧ u.kind ≠ .endOfInput ∧ Token.Ordered (u :: s.toList)
  | .declaration start .. => s.kind = .identifier "module" ∧
    start.start ≤ s.current.span.start ∧ start.stop ≤ s.current.span.stop
  | _ => True

/-- A module declaration spans the tokens from its start to its closing brace. -/
theorem Reads.declaration_span {start : Span} {exported : Bool} {placement : Placement}
    {d : ModuleDeclaration} {s s' : TokenStream}
    (h : Reads (.declaration start exported placement d) s s') (hs : s.Closed)
    (ho : Token.Ordered s.toList)
    (hbegins : Phrase.Begins s (.declaration start exported placement d)) :
    d.exported = exported ∧ d.span.start = start.start ∧
      ∃ closing : TokenStream, closing.Follows s ∧ closing.toList = closing.current :: s'.toList ∧
        closing.kind = .rightBrace ∧ d.span.stop = closing.current.span.stop := by
  cases h with
  | @declaration _ _ _ _ s₁ closing _ _ hname hopen hbody hclose =>
      have hfollows : closing.Follows s :=
        hbody.follows.of_advance.trans (follows_moduleName hname).of_advance
      obtain ⟨hstart, hstop⟩ := ho.le_of_follows hfollows
      refine ⟨rfl, ?_, closing, hfollows,
        (hs.of_follows hfollows).toList_eq (by simp [hclose]), hclose, ?_⟩
      · exact Nat.min_eq_left (Nat.le_trans hbegins.2.1 hstart)
      · exact Nat.max_eq_right (Nat.le_trans hbegins.2.2 hstop)

/-- A run of code ends with its last token so far, or with the current one or a later one. -/
def Phrase.Ends (s : TokenStream) : Phrase → Prop
  | .code _ _ _ last final _ =>
    final = last ∨ s.current.span.start ≤ final.start ∧ s.current.span.stop ≤ final.stop
  | _ => True

/-- A run of code ends with its last token so far or with a later one. -/
theorem Reads.ends {phrase : Phrase} {s s' : TokenStream} (h : Reads phrase s s') (hs : s.Closed)
    (ho : Token.Ordered s.toList) : phrase.Ends s := by
  induction h with
  | codeAtEnd | codeAtClose | codeAtStatement => exact .inl rfl
  | codeAtSemicolon | codeAtDeclaration => exact .inr ⟨Nat.le_refl _, Nat.le_refl _⟩
  | codeModule hat hmodule hcode _ ihCode =>
      obtain ⟨-, hstart, closing, hclosing, -, -, hstop⟩ :=
        hmodule.declaration_span hs ho ⟨kind_of_onModule hat, Nat.le_refl _, Nat.le_refl _⟩
      have hle := ho.le_of_follows hmodule.follows
      have hle' := ho.le_of_follows hclosing
      obtain rfl | hfinal := ihCode (hs.of_follows hmodule.follows) (ho.of_follows hmodule.follows)
      · exact .inr ⟨Nat.le_of_eq hstart.symm, by omega⟩
      · exact .inr ⟨by omega, by omega⟩
  | @codeToken _ _ _ _ _ s _ _ hgoes hcode ih =>
      have hfollows := follows_advance s
      have hle := ho.le_of_follows hfollows
      obtain rfl | hfinal := ih (hs.of_follows hfollows) (ho.of_follows hfollows)
      · exact .inr ⟨Nat.le_refl _, Nat.le_refl _⟩
      · exact .inr ⟨by omega, by omega⟩
  | _ => trivial

/-- The code of a statement starts with its first token. -/
theorem Reads.code_span {codeEnd : CodeEnd} {isFirst : Bool} {depth : Nat} {final : Span}
    {modules : List ModuleDeclaration} {s s' : TokenStream}
    (h : Reads (.code codeEnd isFirst depth s.current.span final modules) s s') (hs : s.Closed)
    (ho : Token.Ordered s.toList) :
    (s.current.span.cover final).start = s.current.span.start ∧
      (s.current.span.cover final).stop = final.stop := by
  obtain rfl | hfinal := h.ends hs ho
  · simp
  · exact ⟨Nat.min_eq_left hfinal.1, Nat.max_eq_right hfinal.2⟩

/-! ## Imports and exports -/

/-- A span reaches over some tokens, but not over what stands behind them. -/
structure Span.Reaches (span : Span) (ts : List Token) (s' : TokenStream) : Prop where
  le : ∀ t ∈ ts, t.span.stop ≤ span.stop
  limit : span.stop ≤ s'.current.span.start

/-- A declaration in clauses reaches from its first word over all tokens of its clauses. These are
passed from `s₀` on, behind `u`. -/
theorem span_of_ended {α : Type} {f : TokenStream → Except SyntaxFault (α × TokenStream)}
    {build : α → Span → Statement} {Q : α → List Token → Prop} (hQ : ∀ a, Clausal (Q a))
    {start : Span} {s₀ s s' : TokenStream} {st : Statement} {u : Token} (hs₀ : s₀.Closed)
    (hu : s₀.previous = some u) (ho : Token.Ordered (u :: s₀.toList)) (hstart : start = u.span)
    (hf : ∀ {a : α} {s₁ : TokenStream}, f s = .ok (a, s₁) → ∃ ts, s₀.Passes ts s₁ ∧ Q a ts)
    (h : ended f build start s = .ok (st, s')) :
    ∃ a span ts, st = build a span ∧ span.start = start.start ∧ s₀.toList = ts ++ s'.toList ∧
      Q a ts ∧ span.Reaches (u :: ts) s' := by
  subst hstart
  obtain ⟨a, ts, front, last, rfl, hts, hQts, htokens⟩ := exists_of_ended hQ hs₀ hu hf h
  have hall : u :: s₀.toList = front ++ [last] ++ s'.toList := by
    rw [hts.toList_eq, ← htokens, List.cons_append]
  rw [hall] at ho
  have hlast : ∀ t ∈ u :: ts, t.span.start ≤ last.span.start ∧ t.span.stop ≤ last.span.stop :=
    fun t ht => (ho.sublist (List.sublist_append_left ..)).le_last (htokens ▸ ht)
  obtain ⟨hfirst, hstop⟩ := hlast u (List.mem_cons_self ..)
  have hcover : u.span.cover last.span = ⟨u.span.start, last.span.stop⟩ := by
    rw [Span.cover, Nat.min_eq_left hfirst, Nat.max_eq_right hstop]
  have hlimit : last.span.stop ≤ s'.current.span.start :=
    (List.pairwise_append.1 ho.apart).2.2 last (by simp) s'.current (List.mem_cons_self ..)
  refine ⟨a, u.span.cover last.span, ts, rfl, by rw [hcover], hts.toList_eq, hQts, ?_, ?_⟩
  · rw [hcover]
    exact fun t ht => (hlast t ht).2
  · rw [hcover]
    exact hlimit

section Clauses

variable {start : Span} {st : Statement} {s s' : TokenStream} {u : Token}

/-- An `export *` starts at its word and reaches over its tokens, which have a property of
clauses. -/
theorem span_of_exportAll {Q : Option String → List Token → Prop} (hQ : ∀ name?, Clausal (Q name?))
    (halias : ∀ (name? : Option String) (t : Token), (exportName? t.kind).isSome →
      exportName? t.kind = name? → Q name? [t])
    (hs : s.Closed) (hkind : s.kind = .star) (hu : s.previous = some u)
    (ho : Token.Ordered (u :: s.toList)) (hstart : start = u.span)
    (h : exportAllClause start s.advance = .ok (st, s')) :
    ∃ source name? span ts, st = .exportAll source name? span ∧ span.start = start.start ∧
      s.toList = ts ++ s'.toList ∧ Q name? ts ∧ span.Reaches (u :: ts) s' := by
  rw [exportAllClause_eq] at h
  have hf : ∀ {x : Specifier × Option String} {s₁ : TokenStream},
      allClause s.advance = .ok (x, s₁) → ∃ ts, s.Passes ts s₁ ∧ Q x.2 ts := fun hread =>
    (hQ _).advance hs hkind rfl
      ((hQ _).allClause (halias _) (hs.of_follows (follows_advance s)) hread)
  obtain ⟨x, span, ts, rfl, hspan, htokens, hQts, hreaches⟩ :=
    span_of_ended (fun x => hQ x.2) hs hu ho hstart hf h
  exact ⟨x.1, x.2, span, ts, rfl, hspan, htokens, hQts, hreaches⟩

variable {Q : List Token → Prop} {n : Nat}

/-- An export of names starts at its word and reaches over its tokens, which have a property of
clauses. -/
theorem span_of_exportNames (hQ : Clausal Q) (hs : s.Closed) (hkind : s.kind = .leftBrace)
    (hu : s.previous = some u) (ho : Token.Ordered (u :: s.toList)) (hstart : start = u.span)
    (h : exportNamesClause n start s.advance = .ok (st, s')) :
    ∃ names source span ts, st = .exportNames names source span ∧ span.start = start.start ∧
      s.toList = ts ++ s'.toList ∧ Q ts ∧ span.Reaches (u :: ts) s' := by
  rw [exportNamesClause_eq] at h
  obtain ⟨x, span, ts, rfl, hspan, htokens, hQts, hreaches⟩ :=
    span_of_ended (fun _ => hQ) hs hu ho hstart (fun hread => hQ.namesClause hs hkind hread) h
  exact ⟨x.1, x.2, span, ts, rfl, hspan, htokens, hQts, hreaches⟩

/-- An import starts at its word and reaches over its tokens, which have a property of clauses. -/
theorem span_of_importFrom (hQ : Clausal Q) (hs : s.Closed) (hat : s.atImport = true)
    (ho : Token.Ordered s.toList) (h : importDeclaration n s = .ok (st, s')) :
    ∃ source bindings span ts, st = .importFrom source bindings span ∧
      span.start = s.current.span.start ∧ s.advance.toList = ts ++ s'.toList ∧ Q ts ∧
      span.Reaches (s.current :: ts) s' := by
  rw [importDeclaration_eq] at h
  have hend : s.kind ≠ .endOfInput := by simp [kind_of_atImport hat]
  have hs₁ := hs.of_follows (follows_advance s)
  have hlist := hs.toList_eq hend
  obtain ⟨x, span, ts, rfl, hspan, htokens, hQts, hreaches⟩ := span_of_ended (fun _ => hQ) hs₁
    (previous_advance (hs.ahead_ne_nil hend)) (hlist ▸ ho) rfl
    (fun hread => (hQ.importClause n).passes hs₁ hread) h
  exact ⟨x.1, x.2, span, ts, rfl, hspan, htokens, hQts, hreaches⟩

end Clauses

/-- What stands behind `export` is an export that starts with it. -/
theorem Reads.exported_leads {start : Span} {st : Statement} {s s' : TokenStream}
    (h : Reads (.exported start st) s s') (hs : s.Closed)
    (hbegins : Phrase.Begins s (.exported start st)) :
    st.keyword? = some .«export» ∧ st.span.start = start.start := by
  obtain ⟨u, hu, rfl, -, ho⟩ := hbegins
  have hs' : Token.Ordered s.toList := ho.sublist (List.sublist_cons_self ..)
  -- `u` is the word `export`, with which the span begins
  have hbehind : ∀ {s₁ : TokenStream}, s₁.Follows s → u.span.start ≤ s₁.current.span.start := by
    intro s₁ hfollows
    have hstop := ho.le_of_cons (t := s.current) (List.mem_cons_self ..)
    have hle := ho.le u (List.mem_cons_self ..)
    have hcurrent := (hs'.le_of_follows hfollows).1
    omega
  cases h with
  | exportModule hat hread =>
      have hstop := ho.le_of_cons (t := s.current) (List.mem_cons_self ..)
      have hcurrent := ho.le s.current (List.mem_cons_of_mem _ (List.mem_cons_self ..))
      obtain ⟨hexported, hstart, -⟩ :=
        hread.declaration_span hs hs'
          ⟨kind_of_atModule hat, hbehind (.refl s), Nat.le_trans hstop hcurrent⟩
      exact ⟨by rw [Statement.keyword?, hexported, if_pos rfl], hstart⟩
  | exportAll hkind hread =>
      obtain ⟨source, name?, span, ts, rfl, hspan, -⟩ :=
        span_of_exportAll (fun _ => Quiet.clausal) Quiet.ofAlias hs hkind hu ho rfl hread
      exact ⟨rfl, hspan⟩
  | exportNames hkind hread =>
      obtain ⟨names, source, span, ts, rfl, hspan, -⟩ :=
        span_of_exportNames (Quiet.clausal (A := fun _ => False)) hs hkind hu ho rfl hread
      exact ⟨rfl, hspan⟩
  | exportDefault hkind hcode =>
      have hfollows := follows_advance s
      refine ⟨rfl, Nat.min_eq_left ?_⟩
      rw [(hcode.code_span (hs.of_follows hfollows) (hs'.of_follows hfollows)).1]
      exact hbehind hfollows
  | exportDeclaration _ _ hcode _ =>
      refine ⟨rfl, Nat.min_eq_left ?_⟩
      rw [(hcode.code_span hs hs').1]
      exact hbehind (.refl s)

end ModuleGraph
