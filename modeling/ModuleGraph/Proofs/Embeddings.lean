import ModuleGraph.Proofs.ClauseTokens
import ModuleGraph.Proofs.FragmentBodies

/-!
# Tokens in front of a closing brace

The tokens of a text can stand, moved, in front of a closing brace. `Embedding.Pairs` relates the
places of the two, and every reader of an import or export clause that accepts the text alone
accepts it there (`Embeds`). The first token may stand on another line than in the text, and so may
the closing brace, compared with the end of the input.
-/

namespace ModuleGraph

open TokenStream
open ModuleGraph.Parser

/-- A closing brace and the tokens behind it. The tokens of a text stand in front of it, moved
`offset` bytes to the right. -/
structure Embedding where
  offset : Nat
  closing : Token
  after : List Token
  closing_kind : closing.kind = .rightBrace

namespace Embedding

/-- The token before a place is the one before the place in the text, or an opening brace where
nothing stands before that. -/
inductive Behind (e : Embedding) : Option Token → Option Token → Prop where
  | first {t : Token} (hkind : t.kind = .leftBrace) : Behind e (some t) none
  | token {t t₀ : Token} (hkind : t.kind = t₀.kind) (hspan : t.span = t₀.span.shift e.offset) :
      Behind e (some t) (some t₀)

/-- A place `s₀` in the text and the same place `s` in front of the closing brace. `closing` is the
end of the text, where the brace comes, and `token` a token of the text, which stands on its line
unless it is the first one. -/
inductive Pairs (e : Embedding) : TokenStream → TokenStream → Prop where
  | closing {s s₀ : TokenStream} (hbehind : e.Behind s.previous s₀.previous)
      (hend : s₀.kind = .endOfInput) (hahead₀ : s₀.ahead = [])
      (hempty : s₀.current.span.start = s₀.current.span.stop)
      (htokens : s.toList = e.closing :: e.after) : Pairs e s s₀
  | token {s s₀ : TokenStream} (hbehind : e.Behind s.previous s₀.previous)
      (hend : s₀.kind ≠ .endOfInput) (hkind : s.kind = s₀.kind)
      (hspan : s.current.span = s₀.current.span.shift e.offset)
      (hline : s₀.previous.isSome → s₀.current.newlineBefore = s.current.newlineBefore)
      (hahead : s.ahead ≠ []) (hahead₀ : s₀.ahead ≠ []) (hnext : Pairs e s.advance s₀.advance) :
      Pairs e s s₀

namespace Pairs

variable {e : Embedding} {s s₀ s' s₀' : TokenStream}

/-- What stands before two paired places is paired, too. -/
theorem behind (h : e.Pairs s s₀) : e.Behind s.previous s₀.previous := by
  cases h <;> assumption

/-- Paired tokens are of one kind. -/
theorem kind_eq (h : e.Pairs s s₀) (hend : s₀.kind ≠ .endOfInput) : s.kind = s₀.kind := by
  cases h with
  | closing _ hend' => exact absurd hend' hend
  | token _ _ hkind => exact hkind

/-- Where the text ends, the closing brace comes. -/
theorem toList_of_end (h : e.Pairs s s₀) (hend : s₀.kind = .endOfInput) :
    s.toList = e.closing :: e.after := by
  cases h with
  | closing _ _ _ _ htokens => exact htokens
  | token _ hend' => exact absurd hend hend'

/-- Where the text ends, the brace stands. -/
theorem kind_of_end (h : e.Pairs s s₀) (hend : s₀.kind = .endOfInput) : s.kind = .rightBrace := by
  have hcurrent : s.current = e.closing := (List.cons.inj (h.toList_of_end hend)).1
  rw [kind, hcurrent, e.closing_kind]

/-- Where no closing brace stands, the text does not end. -/
theorem kind_ne (h : e.Pairs s s₀) (hkind : s.kind ≠ .rightBrace) : s₀.kind ≠ .endOfInput :=
  mt h.kind_of_end hkind

/-- Behind paired tokens the places are paired. -/
theorem advance (h : e.Pairs s s₀) (hend : s₀.kind ≠ .endOfInput) :
    e.Pairs s.advance s₀.advance := by
  cases h with
  | closing _ hend' => exact absurd hend' hend
  | token _ _ _ _ _ _ _ hnext => exact hnext

/-- Behind a token of the text there is one before. -/
theorem isSome_previous (h : e.Pairs s s₀) (hend : s₀.kind ≠ .endOfInput) :
    s₀.advance.previous.isSome := by
  cases h with
  | closing _ hend' => exact absurd hend' hend
  | token _ _ _ _ _ _ hahead₀ _ => rw [previous_advance hahead₀]; rfl

/-- The spans of paired tokens differ by the offset. -/
theorem span_eq (h : e.Pairs s s₀) (hend : s₀.kind ≠ .endOfInput) :
    s.current.span = s₀.current.span.shift e.offset := by
  cases h with
  | closing _ hend' => exact absurd hend' hend
  | token _ _ _ hspan => exact hspan

/-- Behind the first token all tokens stand on the lines of the text. -/
theorem newlineBefore_eq (h : e.Pairs s s₀) (hsome : s₀.previous.isSome)
    (hkind : s.kind ≠ .rightBrace) : s₀.current.newlineBefore = s.current.newlineBefore := by
  cases h with
  | closing hbehind hend hahead₀ hempty htokens =>
      exact absurd ((Pairs.closing hbehind hend hahead₀ hempty htokens).kind_of_end hend) hkind
  | token _ _ _ _ hline => exact hline hsome

/-- At its end the text has no characters left, and no place behind. -/
theorem empty (h : e.Pairs s s₀) (hend : s₀.kind = .endOfInput) :
    s₀.current.span.start = s₀.current.span.stop ∧ s₀.advance = s₀ := by
  cases h with
  | closing _ _ hahead₀ hempty _ => exact ⟨hempty, by rw [TokenStream.advance, hahead₀]⟩
  | token _ hend' => exact absurd hend hend'

/-- The token before a place of the text stands, moved, before the paired place. -/
theorem exists_previous (h : e.Pairs s s₀) {t₀ : Token} (ht : s₀.previous = some t₀) :
    ∃ t, s.previous = some t ∧ t.span = t₀.span.shift e.offset := by
  have hbehind := h.behind
  rw [ht] at hbehind
  generalize hprevious : s.previous = previous at hbehind
  cases hbehind with
  | token _ hspan => exact ⟨_, rfl, hspan⟩

/-- All tokens of the two places, with the ends of both. -/
theorem exists_toList (h : e.Pairs s s₀) : ∃ ts ts₀ ending, s.toList = ts ++ e.closing :: e.after ∧
    s₀.toList = ts₀ ++ [ending] ∧ ending.kind = .endOfInput ∧
      ts.map Token.kind = ts₀.map Token.kind := by
  induction h with
  | @closing s s₀ _ hend hahead₀ _ htokens =>
      exact ⟨[], [], s₀.current, htokens, by rw [toList, hahead₀]; rfl, hend, rfl⟩
  | @token s s₀ _ _ hkind _ _ hahead hahead₀ _ ih =>
      obtain ⟨ts, ts₀, ending, htokens, htokens₀, hending, hkinds⟩ := ih
      have hlist := (Passes.advance hahead (.refl s.advance)).toList_eq
      have hlist₀ := (Passes.advance hahead₀ (.refl s₀.advance)).toList_eq
      refine ⟨s.current :: ts, s₀.current :: ts₀, ending, ?_, ?_, hending, ?_⟩
      · rw [hlist, htokens]
        rfl
      · rw [hlist₀, htokens₀]
        rfl
      · rw [List.map_cons, List.map_cons, hkinds]
        exact congrArg (· :: _) hkind

/-- The tokens of the text end with the end of the input. -/
theorem closed (h : e.Pairs s s₀) : s₀.Closed := by
  obtain ⟨-, ts₀, ending, -, htokens₀, hending, -⟩ := h.exists_toList
  exact ⟨ts₀, ending, htokens₀, hending⟩

/-- The tokens between two places are the same in the text and in front of the brace. -/
theorem kinds_eq (h : e.Pairs s s₀) (h' : e.Pairs s' s₀') :
    (s.toList.take (s.ahead.length - s'.ahead.length)).map Token.kind =
      (s₀.toList.take (s₀.ahead.length - s₀'.ahead.length)).map Token.kind := by
  obtain ⟨ts, ts₀, ending, htokens, htokens₀, -, hkinds⟩ := h.exists_toList
  obtain ⟨us, us₀, ending', husTokens, husTokens₀, -, husKinds⟩ := h'.exists_toList
  have hlength := congrArg List.length hkinds
  have hlength' := congrArg List.length husKinds
  -- as many tokens are in front of the brace as in front of the end of the text
  have hahead : ∀ (s : TokenStream), s.ahead.length = s.toList.length - 1 := fun s => rfl
  simp only [List.length_map] at hlength hlength'
  rw [hahead, hahead, hahead, hahead, htokens, htokens₀, husTokens, husTokens₀]
  simp only [List.length_append, List.length_cons, List.length_nil]
  have htake : ts.length + (e.after.length + 1) - 1 - (us.length + (e.after.length + 1) - 1) =
      ts.length - us.length := by omega
  have htake₀ : ts₀.length + (0 + 1) - 1 - (us₀.length + (0 + 1) - 1) =
      ts.length - us.length := by omega
  rw [htake, htake₀, List.take_append_of_le_length (by omega),
    List.take_append_of_le_length (by omega), List.map_take, List.map_take, hkinds]

end Pairs

/-- The places have the same tokens ahead in front of the closing brace. -/
theorem alike (e : Embedding) : Alike e.Pairs where
  kind_eq h hkind := (h.kind_eq (h.kind_ne hkind)).symm
  ends {s s₀} h hkind := by
    by_cases hend : s₀.kind = .endOfInput
    · exact .inr hend
    · exact .inl ((h.kind_eq hend).symm.trans hkind)
  advance h hkind := h.advance (h.kind_ne hkind)
  newlineBefore_eq h hkind hkind' :=
    (h.advance (h.kind_ne hkind)).newlineBefore_eq (h.isSome_previous (h.kind_ne hkind)) hkind'
  afterMemberAccess_eq {s s₀} h := by
    have hbehind := h.behind
    unfold afterMemberAccess
    generalize s.previous = previous at hbehind
    generalize s₀.previous = previous₀ at hbehind
    cases hbehind with
    | first hkind => simp [hkind]
    | token hkind _ => simp [hkind]

end Embedding

/-! ## Readers of clauses -/

/-- A reader that accepts in front of the closing brace what it accepts of the text alone. -/
structure Embeds {α : Type} (f : TokenStream → Except SyntaxFault (α × TokenStream)) : Prop where
  embed : ∀ {e : Embedding} {s s₀ s₀' : TokenStream} {a : α}, e.Pairs s s₀ → s₀.previous.isSome →
    f s₀ = .ok (a, s₀') → ∃ s', e.Pairs s' s₀' ∧ s₀'.previous.isSome ∧ f s = .ok (a, s')

namespace Embeds

variable {α β : Type} {f g : TokenStream → Except SyntaxFault (α × TokenStream)}

/-- A reader that reads nothing accepts in front of the brace. -/
theorem pure (a : α) : Embeds fun s => .ok (a, s) where
  embed hpairs hsome h := by
    cases h
    exact ⟨_, hpairs, hsome, rfl⟩

/-- A reader that always fails accepts nothing anywhere. -/
theorem fail (h : ∀ s, ∃ fault, f s = .error fault) : Embeds f where
  embed _ _ hs := by
    obtain ⟨fault, hfault⟩ := h _
    rw [hfault] at hs
    cases hs

/-- Two readers, one after the other, accept in front of the brace if both of them do. -/
theorem bind {g : α → TokenStream → Except SyntaxFault (β × TokenStream)} (hf : Embeds f)
    (hg : ∀ a, Embeds (g a)) : Embeds fun s => f s >>= fun r => g r.1 r.2 where
  embed hpairs hsome h := by
    obtain ⟨⟨a, s₁⟩, hread, h⟩ := Except.bind_eq_ok h
    obtain ⟨s', hpairs', hsome', hread'⟩ := hf.embed hpairs hsome hread
    obtain ⟨s'', hpairs'', hsome'', h'⟩ := (hg a).embed hpairs' hsome' h
    exact ⟨s'', hpairs'', hsome'', by rw [hread']; exact h'⟩

/-- The reader of one token accepts it in front of the brace, if it is not for the end of the
input. -/
theorem accept {read? : Token.Kind → Option α} (expectation : Expectation)
    (hend : read? .endOfInput = none) : Embeds (accept read? expectation) where
  embed {e s s₀ s₀' a} hpairs hsome h := by
    obtain ⟨hread, rfl⟩ := accept_eq_ok h
    have hkind : s₀.kind ≠ .endOfInput := kind_ne_of_read? hread hend
    refine ⟨s.advance, hpairs.advance hkind, isSome_previous_advance hsome, ?_⟩
    rw [TokenStream.accept, hpairs.kind_eq hkind, hread]

/-- A reader that goes on behind a token, or with another one where the token is not, accepts in
front of the brace if both do. -/
theorem token {f : β → TokenStream → Except SyntaxFault (α × TokenStream)}
    {g : TokenStream → Except SyntaxFault (α × TokenStream)} {read? : Token.Kind → Option β}
    (hbrace : read? .rightBrace = none) (hend : read? .endOfInput = none)
    (hf : ∀ b, Embeds (f b)) (hg : Embeds g) :
    Embeds fun s => (read? s.kind).elim (g s) fun b => f b s.advance where
  embed {e s s₀ s₀' a} hpairs hsome h := by
    rw [← e.alike.read?_eq hpairs hbrace hend]
    cases hread : read? s₀.kind with
    | none =>
        rw [hread] at h
        exact hg.embed hpairs hsome h
    | some b =>
        rw [hread] at h
        have hkind : s₀.kind ≠ .endOfInput := kind_ne_of_read? hread hend
        exact (hf b).embed (hpairs.advance hkind) (isSome_previous_advance hsome) h

/-- In front of the brace a list can end where the text does; alone it cannot. -/
theorem close (a : α) (hneeds : NeedsToken f) (hf : Embeds f) :
    Embeds fun s => if s.kind = .rightBrace then .ok (a, s.advance) else f s where
  embed {e s s₀ s₀' b} hpairs hsome h := by
    have hkind : s₀.kind ≠ .endOfInput := by
      intro hkind
      obtain ⟨fault, hfault⟩ := hneeds s₀ hkind
      simp [hkind, hfault] at h
    simp only [hpairs.kind_eq hkind]
    split at h
    · next hbrace =>
        cases h
        exact ⟨s.advance, hpairs.advance hkind, isSome_previous_advance hsome,
          by rw [if_pos hbrace]⟩
    · next hbrace =>
        rw [if_neg hbrace]
        exact hf.embed hpairs hsome h

/-- The first closing brace of the text is paired with the first one in front of the brace, or its
end with the brace. -/
theorem atRightBrace_pairs {e : Embedding} {s s₀ : TokenStream} (h : e.Pairs s s₀)
    (hsome : s₀.previous.isSome) :
    e.Pairs (atRightBrace s) (atRightBrace s₀) ∧ (atRightBrace s₀).previous.isSome := by
  induction h with
  | @closing s s₀ hbehind hend hahead₀ hempty htokens =>
      have hpairs := Embedding.Pairs.closing hbehind hend hahead₀ hempty htokens
      rw [atRightBrace_eq s, if_pos (.inr (.inl (hpairs.kind_of_end hend))), atRightBrace_eq s₀,
        if_pos (.inl hahead₀)]
      exact ⟨hpairs, hsome⟩
  | @token s s₀ hbehind hend hkind hspan hline hahead hahead₀ hnext ih =>
      have hpairs := Embedding.Pairs.token hbehind hend hkind hspan hline hahead hahead₀ hnext
      rw [atRightBrace_eq s, atRightBrace_eq s₀]
      simp only [hahead, hahead₀, false_or, hkind]
      split
      · exact ⟨hpairs, hsome⟩
      · exact ih (isSome_previous_advance hsome)

/-- Attributes are skipped in front of the brace as in the text. -/
theorem skipAttributes : Embeds fun s => s.skipAttributes.map (Prod.mk ()) where
  embed {e s s₀ s₀' a} hpairs hsome h := by
    simp only [skipAttributes_eq] at h
    rw [e.alike.atAttributes_eq hpairs (hpairs.newlineBefore_eq hsome)] at h
    cases hat : atAttributes s with
    | false =>
        rw [hat] at h
        cases h
        exact ⟨s, hpairs, hsome, by rw [skipAttributes_eq, hat]; rfl⟩
    | true =>
        rw [hat, if_pos rfl] at h
        split at h
        · next hclose =>
            cases h
            obtain ⟨hword, hopen⟩ := kinds_of_atAttributes hat
            have hkind : s.kind ≠ .rightBrace := by obtain hword | hword := hword <;> simp [hword]
            have hpairs₂ := e.alike.advance (e.alike.advance hpairs hkind) (by simp [hopen])
            obtain ⟨hpairs', hsome'⟩ := atRightBrace_pairs hpairs₂
              (isSome_previous_advance (isSome_previous_advance hsome))
            have hend : (atRightBrace s₀.advance.advance).kind ≠ .endOfInput := by simp [hclose]
            refine ⟨(atRightBrace s.advance.advance).advance, hpairs'.advance hend,
              isSome_previous_advance hsome', ?_⟩
            rw [skipAttributes_eq, hat, if_pos rfl, if_pos ((hpairs'.kind_eq hend).trans hclose)]
            rfl
        · cases h

/-- A default binding is read in front of the brace as in the text. -/
theorem defaultBinding : Embeds fun s => .ok (Parser.defaultBinding s) where
  embed {e s s₀ s₀' a} hpairs hsome h := by
    have hread₀ : identifier? s₀.kind = identifier? s.kind := e.alike.read?_eq hpairs rfl rfl
    rw [defaultBinding_eq] at h ⊢
    rw [hread₀] at h
    cases hread : identifier? s.kind with
    | none =>
        rw [hread] at h
        cases h
        exact ⟨s, hpairs, hsome, rfl⟩
    | some name =>
        rw [hread] at h
        have hkind : s.kind ≠ .rightBrace := kind_ne_of_read? hread rfl
        have hpairs₁ := e.alike.advance hpairs hkind
        have hsome₁ := isSome_previous_advance hsome
        have hcomma := e.alike.kind_iff hpairs₁ (k := .comma) (by simp) (by simp)
        have hfrom := e.alike.kind_iff hpairs₁ (k := .identifier "from") (by simp) (by simp)
        dsimp only [Option.elim] at h ⊢
        simp only [hcomma, hfrom] at h
        split at h
        · next hkind₁ =>
            cases h
            exact ⟨s.advance.advance, e.alike.advance hpairs₁ (by simp [hkind₁]),
              isSome_previous_advance hsome₁, by rw [if_pos hkind₁]⟩
        · next hkind₁ =>
            rw [if_neg hkind₁]
            split at h
            · next hkind₂ =>
                cases h
                exact ⟨s.advance, hpairs₁, hsome₁, by rw [if_pos hkind₂]⟩
            · next hkind₂ =>
                cases h
                exact ⟨s, hpairs, hsome, by rw [if_neg hkind₂]⟩

/-- Readers that accept in front of the brace can be put together. -/
theorem compositional : Compositional @Embeds where
  pure := .pure
  unexpected _ := .fail fun _ => ⟨_, rfl⟩
  bind := .bind
  accept := .accept
  token := .token
  close := .close
  skipAttributes := .skipAttributes
  defaultBinding := .defaultBinding

/-- Lists are read in front of the brace as in the text. -/
theorem readsLists (n : Nat) : ReadsLists n @Embeds :=
  Embeds.compositional.readsLists (.fail fun _ => ⟨_, rfl⟩) n

end Embeds

/-! ## Statements in clauses -/

section Statements

variable {e : Embedding} {s s₀ s₀' : TokenStream} {statement : Statement}

/-- A statement ends in front of the closing brace as it does at the end of the text. -/
theorem endStatement_embedded {last₀ : Token} (hpairs : e.Pairs s s₀) (hsome : s₀.previous.isSome)
    (h : s₀.endStatement = .ok (last₀, s₀')) :
    ∃ s' last, e.Pairs s' s₀' ∧ last.span = last₀.span.shift e.offset ∧
      s.endStatement = .ok (last, s') := by
  have hsemicolon := e.alike.kind_iff hpairs (k := .semicolon) (by simp) (by simp)
  rw [endStatement_eq] at h
  split at h
  · next hkind =>
      cases h
      have hend : s₀.kind ≠ .endOfInput := by simp [hkind]
      exact ⟨s.advance, s.current, hpairs.advance hend, hpairs.span_eq hend, by
        rw [endStatement_eq, if_pos (hsemicolon.1 hkind)]⟩
  · next hkind =>
      split at h <;> cases h
      next hends =>
        obtain ⟨t₀, ht₀⟩ := Option.isSome_iff_exists.1 hsome
        obtain ⟨t, ht, hspan⟩ := hpairs.exists_previous ht₀
        have hends' : (s.kind = .rightBrace ∨ s.kind = .endOfInput) ∨
            s.current.newlineBefore = true := by
          by_cases hbrace : s.kind = .rightBrace
          · exact .inl (.inl hbrace)
          · rw [← hpairs.newlineBefore_eq hsome hbrace,
              hpairs.kind_eq (hpairs.kind_ne hbrace)]
            exact hends
        refine ⟨s, t, hpairs, by rw [ht₀]; exact hspan, ?_⟩
        rw [endStatement_eq, if_neg (mt hsemicolon.2 hkind), if_pos hends', ht]
        rfl

/-- A statement in clauses is read with its end in front of the brace, its spans moved. -/
theorem ended_embedded {α : Type} {f : TokenStream → Except SyntaxFault (α × TokenStream)}
    (hf : Embeds f) {build : α → Span → Statement}
    (hbuild : ∀ a span, (build a span).shift e.offset = build a (span.shift e.offset))
    (hpairs : e.Pairs s s₀) (hsome : s₀.previous.isSome) {start : Span}
    (h : ended f build start s₀ = .ok (statement, s₀')) :
    ∃ s', e.Pairs s' s₀' ∧
      ended f build (start.shift e.offset) s = .ok (statement.shift e.offset, s') := by
  obtain ⟨⟨a, s₁₀⟩, hread, h⟩ := Except.bind_eq_ok h
  obtain ⟨⟨last₀, s₂₀⟩, hend, h⟩ := Except.bind_eq_ok h
  cases h
  obtain ⟨s₁, hpairs₁, hsome₁, hread₁⟩ := hf.embed hpairs hsome hread
  obtain ⟨s₂, last, hpairs₂, hspan, hend₂⟩ := endStatement_embedded hpairs₁ hsome₁ hend
  refine ⟨s₂, hpairs₂, ?_⟩
  rw [ended, hread₁]
  show (s₁.endStatement >>= _) = _
  rw [hend₂, hbuild, Span.shift_cover, ← hspan]
  rfl

/-- An import declaration is read in front of the brace as in the text. -/
theorem importDeclaration_embedded {n : Nat} (hpairs : e.Pairs s s₀) (hat : s₀.atImport = true)
    (h : importDeclaration n s₀ = .ok (statement, s₀')) :
    ∃ s', e.Pairs s' s₀' ∧ importDeclaration n s = .ok (statement.shift e.offset, s') := by
  have hend : s₀.kind ≠ .endOfInput := by simp [kind_of_atImport hat]
  rw [importDeclaration_eq] at h
  rw [importDeclaration_eq, hpairs.span_eq hend]
  exact ended_embedded (Embeds.compositional.importClause (Embeds.readsLists n)) (fun _ _ => rfl)
    (hpairs.advance hend) (hpairs.isSome_previous hend) h

/-- An `export *` is read in front of the brace as in the text. -/
theorem exportAllClause_embedded {start : Span} (hpairs : e.Pairs s s₀)
    (hsome : s₀.previous.isSome) (h : exportAllClause start s₀ = .ok (statement, s₀')) :
    ∃ s', e.Pairs s' s₀' ∧
      exportAllClause (start.shift e.offset) s = .ok (statement.shift e.offset, s') := by
  rw [exportAllClause_eq] at h ⊢
  exact ended_embedded Embeds.compositional.allClause (fun _ _ => rfl) hpairs hsome h

/-- An export of names is read in front of the brace as in the text. -/
theorem exportNamesClause_embedded {n : Nat} {start : Span} (hpairs : e.Pairs s s₀)
    (hsome : s₀.previous.isSome) (h : exportNamesClause n start s₀ = .ok (statement, s₀')) :
    ∃ s', e.Pairs s' s₀' ∧
      exportNamesClause n (start.shift e.offset) s = .ok (statement.shift e.offset, s') := by
  rw [exportNamesClause_eq] at h ⊢
  exact ended_embedded (Embeds.compositional.namesClause (Embeds.readsLists n)) (fun _ _ => rfl)
    hpairs hsome h

end Statements

end ModuleGraph
