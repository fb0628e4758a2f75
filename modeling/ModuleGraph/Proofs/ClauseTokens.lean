import ModuleGraph.Proofs.Brackets

/-!
# The tokens of import and export clauses

Import and export clauses pass names, specifiers, commas and pairs of braces. Outside of the braces
the only `import` or `export` among them is the name behind `export * as`.
-/

namespace ModuleGraph

open TokenStream
open ModuleGraph.Parser

namespace TokenStream

/-- Moving from a place over some tokens leads to another one. -/
inductive Passes : TokenStream → List Token → TokenStream → Prop where
  | refl (s : TokenStream) : Passes s [] s
  | advance {s s' : TokenStream} {ts : List Token} (hahead : s.ahead ≠ [])
      (h : Passes s.advance ts s') : Passes s (s.current :: ts) s'

/-- Behind a token that is not the end of the input others are ahead. -/
theorem Closed.ahead_ne_nil {s : TokenStream} (hs : s.Closed) (h : s.kind ≠ .endOfInput) :
    s.ahead ≠ [] := by
  have hlength := hs.length_advance h
  intro hahead
  simp [hahead] at hlength

/-- Behind the current token, this token is the one before. -/
theorem previous_advance {s : TokenStream} (h : s.ahead ≠ []) :
    s.advance.previous = some s.current := by
  unfold advance
  split
  · exact absurd ‹_› h
  · rfl

namespace Passes

variable {s s' s'' : TokenStream} {ts us : List Token}

/-- The tokens from a place on are those passed and those behind them. -/
theorem toList_eq (h : s.Passes ts s') : s.toList = ts ++ s'.toList := by
  induction h with
  | refl => rfl
  | @advance s s' ts hahead _ ih =>
      rw [List.cons_append, ← ih, toList]
      unfold TokenStream.advance
      split
      · exact absurd ‹_› hahead
      · next t ts htokens => rw [htokens]; rfl

/-- Passing some tokens and then others passes all of them in a row. -/
theorem trans (h : s.Passes ts s') (h' : s'.Passes us s'') : s.Passes (ts ++ us) s'' := by
  induction h with
  | refl => exact h'
  | advance hahead _ ih => exact .advance hahead (ih h')

/-- Passing tokens leads forward. -/
theorem follows (h : s.Passes ts s') : s'.Follows s :=
  ⟨ts, h.toList_eq.symm⟩

/-- Advancing passes the current token. -/
theorem single (hs : s.Closed) (h : s.kind ≠ .endOfInput) : s.Passes [s.current] s.advance :=
  .advance (hs.ahead_ne_nil h) (.refl _)

/-- The token before a place is the last one that was passed. -/
theorem exists_previous (h : s.Passes ts s') {u : Token} (hu : s.previous = some u) :
    ∃ front v, s'.previous = some v ∧ u :: ts = front ++ [v] := by
  induction h generalizing u with
  | refl => exact ⟨[], u, hu, rfl⟩
  | advance hahead _ ih =>
      obtain ⟨front, v, hv, htokens⟩ := ih (previous_advance hahead)
      exact ⟨u :: front, v, hv, congrArg (List.cons u) htokens⟩

end Passes

end TokenStream

/-- A property of tokens in a row that holds of none and of two rows together. -/
structure Joins (Q : List Token → Prop) : Prop where
  nil : Q []
  append : ∀ {ts us : List Token}, Q ts → Q us → Q (ts ++ us)

/-- The tokens that a reader passes have a property. -/
structure Passing {α : Type} (Q : List Token → Prop)
    (f : TokenStream → Except SyntaxFault (α × TokenStream)) : Prop where
  passes : ∀ {s s' : TokenStream} {a : α}, s.Closed → f s = .ok (a, s') →
    ∃ ts, s.Passes ts s' ∧ Q ts

namespace Passing

variable {α β : Type} {Q : List Token → Prop}
  {f g : TokenStream → Except SyntaxFault (α × TokenStream)}

/-- A reader that reads nothing passes no tokens. -/
theorem pure (hQ : Joins Q) (a : α) : Passing Q fun s => .ok (a, s) where
  passes _ h := by
    cases h
    exact ⟨[], .refl _, hQ.nil⟩

/-- Two readers, one after the other, pass the tokens of both. -/
theorem bind (hQ : Joins Q) {g : α → TokenStream → Except SyntaxFault (β × TokenStream)}
    (hf : Passing Q f) (hg : ∀ a, Passing Q (g a)) :
    Passing Q fun s => f s >>= fun r => g r.1 r.2 where
  passes hs h := by
    obtain ⟨⟨a, s₁⟩, hread, h⟩ := Except.bind_eq_ok h
    obtain ⟨ts, hts, hQts⟩ := hf.passes hs hread
    obtain ⟨us, hus, hQus⟩ := (hg a).passes (hs.of_follows hts.follows) h
    exact ⟨ts ++ us, hts.trans hus, hQ.append hQts hQus⟩

/-- A reader of one token passes that token. -/
theorem accept {read? : Token.Kind → Option α} {expectation : Expectation}
    (hend : read? .endOfInput = none)
    (hread : ∀ {t : Token} {a : α}, read? t.kind = some a → Q [t]) :
    Passing Q (accept read? expectation) where
  passes {s s' a} hs h := by
    obtain ⟨hsome, rfl⟩ := accept_eq_ok h
    refine ⟨[s.current], .single hs ?_, hread hsome⟩
    intro hkind
    rw [hkind, hend] at hsome
    cases hsome

/-- Reading on behind a token of the kind `k`. -/
theorem token (hQ : Joins Q) {k : Token.Kind} (hend : k ≠ .endOfInput)
    (hk : ∀ {t : Token}, t.kind = k → Q [t]) (hf : Passing Q f) (hg : Passing Q g) :
    Passing Q fun s => if s.kind = k then f s.advance else g s where
  passes {s s' a} hs h := by
    split at h
    · next hkind =>
        obtain ⟨ts, hts, hQts⟩ := hf.passes (hs.of_follows (follows_advance s)) h
        exact ⟨s.current :: ts, .advance (hs.ahead_ne_nil (hkind ▸ hend)) hts,
          hQ.append (hk hkind) hQts⟩
    · exact hg.passes hs h

/-- Readers that read the same pass the same tokens. -/
theorem congr (hg : Passing Q g) (h : ∀ s, f s = g s) : Passing Q f :=
  (funext h : f = g) ▸ hg

/-- A reader behind a move passes the tokens of both. -/
theorem andThen (hQ : Joins Q) {move : TokenStream → Except SyntaxFault TokenStream}
    (hmove : Passing Q fun s => (move s).map (Prod.mk ())) (hf : Passing Q f) :
    Passing Q fun s => move s >>= f :=
  (bind hQ hmove fun _ => hf).congr fun s => by cases move s <;> rfl

end Passing

/-! ## Names between braces -/

/-- No closing brace is among some tokens. -/
def Braceless (ts : List Token) : Prop :=
  ∀ t ∈ ts, t.kind ≠ .rightBrace

/-- Rows without a closing brace join to one without it. -/
theorem Braceless.joins : Joins Braceless where
  nil := by simp [Braceless]
  append hts hus := by
    intro t ht
    exact (List.mem_append.1 ht).elim (hts t) (hus t)

/-- A token that is no closing brace is a row without one. -/
theorem Braceless.of_kind {t : Token} (h : t.kind ≠ .rightBrace) : Braceless [t] := by
  simpa [Braceless] using h

/-- Some tokens are names and commas. -/
def Named (ts : List Token) : Prop :=
  ∀ t ∈ ts, (exportName? t.kind).isSome ∨ t.kind = .comma

/-- Rows of names and commas join to one of them. -/
theorem Named.joins : Joins Named where
  nil := by simp [Named]
  append hts hus := by
    intro t ht
    exact (List.mem_append.1 ht).elim (hts t) (hus t)

/-- A token that stands for an export name is a name. -/
theorem Named.of_exportName? {t : Token} {name : String} (h : exportName? t.kind = some name) :
    Named [t] := by
  simp [Named, h]

/-- An identifier is a name. -/
theorem Named.of_identifier? {t : Token} {name : String} (h : identifier? t.kind = some name) :
    Named [t] := by
  cases ht : t.kind <;> simp [ht, identifier?] at h
  simp [Named, ht, exportName?]

/-- No closing brace is among names and commas. -/
theorem Named.braceless {ts : List Token} (h : Named ts) : Braceless ts := by
  intro t ht hkind
  obtain hname | hcomma := h t ht
  · simp [hkind, exportName?] at hname
  · simp [hkind] at hcomma

/-- Reading an identifier passes a name. -/
theorem named_expectIdentifier : Passing Named expectIdentifier :=
  (Passing.accept rfl Named.of_identifier?).congr expectIdentifier_eq

/-- Reading an export name passes a name. -/
theorem named_expectExportName : Passing Named expectExportName :=
  (Passing.accept rfl Named.of_exportName?).congr expectExportName_eq

/-- An alias is passed as names, if what is read behind `as` is. -/
theorem named_aliasOr {α : Type} {f : TokenStream → Except SyntaxFault (α × TokenStream)}
    (hf : Passing Named f) (a : α) : Passing Named (aliasOr f a) :=
  (Passing.token Named.joins (k := .identifier "as") (by simp)
    (fun h => by simp [Named, h, exportName?]) hf (.pure Named.joins a)).congr fun s => by
      simp only [aliasOr, atWord_iff]

/-- One name of an import is passed as names. -/
theorem named_importedName : Passing Named importedName :=
  .bind Named.joins named_expectExportName fun imported =>
    .bind Named.joins (named_aliasOr named_expectIdentifier imported) fun localName =>
      .pure Named.joins (ImportBinding.named imported localName)

/-- One name of an export is passed as names. -/
theorem named_exportedName : Passing Named exportedName :=
  .bind Named.joins named_expectExportName fun localName =>
    .bind Named.joins (named_aliasOr named_expectExportName localName) fun exported =>
      .pure Named.joins (ExportedName.mk localName exported)

/-- A list in braces ends with the first closing brace. -/
theorem exists_of_closedList {α : Type}
    {item : TokenStream → Except SyntaxFault (α × TokenStream)} (hitem : Passing Named item)
    {n : Nat} {s s' : TokenStream} {as : List α} (hs : s.Closed)
    (h : closedList item n s = .ok (as, s')) :
    ∃ ts closing, s.Passes (ts ++ [closing]) s' ∧ Named ts ∧ closing.kind = .rightBrace := by
  induction n generalizing s as with
  | zero => cases h
  | succ n ih =>
      rw [closedList] at h
      split at h
      · next hbrace =>
          cases h
          exact ⟨[], s.current, .single hs (by simp [hbrace]), Named.joins.nil, hbrace⟩
      · obtain ⟨⟨a, s₁⟩, hread, h⟩ := Except.bind_eq_ok h
        obtain ⟨ts, hts, hnamed⟩ := hitem.passes hs hread
        have hs₁ := hs.of_follows hts.follows
        dsimp only at h
        split at h
        · next hcomma =>
            obtain ⟨⟨as, s₂⟩, htail, h⟩ := Except.bind_eq_ok h
            cases h
            obtain ⟨us, closing, hus, hnamed', hclosing⟩ :=
              ih (hs₁.of_follows (follows_advance s₁)) htail
            have hcommaPass := Passes.single hs₁ (by simp [hcomma])
            refine ⟨ts ++ ([s₁.current] ++ us), closing, ?_, ?_, hclosing⟩
            · rw [List.append_assoc, List.append_assoc]
              exact hts.trans (hcommaPass.trans hus)
            · have hcommaNamed : Named [s₁.current] := by
                simp [Named, show s₁.current.kind = .comma from hcomma]
              exact Named.joins.append hnamed (Named.joins.append hcommaNamed hnamed')
        · obtain ⟨⟨_, s₂⟩, hclose, h⟩ := Except.bind_eq_ok h
          cases h
          obtain ⟨hkind, rfl⟩ := accept_eq_ok hclose
          -- no comma follows, so that only the brace is accepted
          have hbrace : s₁.kind = .rightBrace := by
            unfold only at hkind
            split at hkind
            · assumption
            · cases hkind
          exact ⟨ts, s₁.current, hts.trans (.single hs₁ (by simp [hbrace])), hnamed, hbrace⟩

/-! ## Clauses -/

/-- The tokens of clauses outside of braces, but for the alias behind `export * as`. -/
def Token.Kind.isClausal : Token.Kind → Bool
  | .identifier _ | .string _ | .comma | .star | .semicolon => true
  | _ => false

/-- The word in front of import attributes. -/
def Token.Kind.leadsAttributes (k : Token.Kind) : Prop :=
  k = .keyword .«with» ∨ k = .identifier "assert"

/-- A property that the tokens of clauses have if their parts have it. -/
structure Clausal (Q : List Token → Prop) : Prop extends Joins Q where
  single : ∀ {t : Token}, t.kind.isClausal = true → Q [t]
  names : ∀ {opening closing : Token} {ts : List Token}, opening.kind = .leftBrace →
    closing.kind = .rightBrace → Named ts → Q (opening :: ts ++ [closing])
  attributes : ∀ {word opening closing : Token} {ts : List Token}, word.kind.leadsAttributes →
    opening.kind = .leftBrace → closing.kind = .rightBrace → Braceless ts →
      Q (word :: opening :: ts ++ [closing])

/-- Whatever tokens clauses have, they are tokens. -/
theorem Clausal.trivial : Clausal fun _ => True where
  nil := .intro
  append _ _ := .intro
  single _ := .intro
  names _ _ _ := .intro
  attributes _ _ _ _ := .intro

/-- No closing brace is passed on the way to the first one. -/
theorem exists_of_atRightBrace {s : TokenStream} (hs : s.Closed) :
    ∃ ts, s.Passes ts (atRightBrace s) ∧ Braceless ts := by
  induction hn : s.ahead.length generalizing s with
  | zero =>
      rw [atRightBrace_eq, if_pos (.inl (List.length_eq_zero_iff.1 hn))]
      exact ⟨[], .refl s, Braceless.joins.nil⟩
  | succ n ih =>
      rw [atRightBrace_eq]
      split
      · exact ⟨[], .refl s, Braceless.joins.nil⟩
      · next hends =>
          rw [not_or, not_or] at hends
          have hlength := hs.length_advance hends.2.2
          obtain ⟨ts, hts, hbraceless⟩ := ih (hs.of_follows (follows_advance s)) (by omega)
          exact ⟨s.current :: ts, .advance hends.1 hts,
            Braceless.joins.append (.of_kind hends.2.1) hbraceless⟩

/-- The attributes of an import declaration, if it has any. -/
inductive IsAttributes : List Token → Prop where
  | none : IsAttributes []
  | some {word opening closing : Token} {inside : List Token} (hword : word.kind.leadsAttributes)
      (hopen : opening.kind = .leftBrace) (hclose : closing.kind = .rightBrace)
      (hinside : Braceless inside) : IsAttributes (word :: opening :: inside ++ [closing])

/-- Skipping attributes passes those that are there, or nothing. -/
theorem exists_of_skipAttributes {s s' : TokenStream} (hs : s.Closed)
    (h : s.skipAttributes = .ok s') : ∃ ts, s.Passes ts s' ∧ IsAttributes ts := by
  rw [skipAttributes_eq] at h
  split at h
  · next hat =>
      split at h
      · next hclose =>
          cases h
          obtain ⟨hword, hopen⟩ := kinds_of_atAttributes hat
          have hend : s.kind ≠ .endOfInput := by
            obtain hkind | hkind := hword <;> simp [hkind]
          have hs₁ := hs.of_follows (follows_advance s)
          have hs₂ := hs₁.of_follows (follows_advance s.advance)
          obtain ⟨ts, hts, hbraceless⟩ := exists_of_atRightBrace hs₂
          have hclosing := Passes.single (hs₂.of_follows hts.follows) (by simp [hclose])
          exact ⟨s.current :: s.advance.current :: ts ++ [(atRightBrace s.advance.advance).current],
            .advance (hs.ahead_ne_nil hend) (.advance (hs₁.ahead_ne_nil (by simp [hopen]))
              (hts.trans hclosing)), .some hword hopen hclose hbraceless⟩
      · cases h
  · cases h
    exact ⟨[], .refl _, .none⟩

namespace Clausal

variable {Q : List Token → Prop}

/-- Reading on behind a token outside of braces. -/
theorem advance (hQ : Clausal Q) {s s' : TokenStream} {k : Token.Kind} (hs : s.Closed)
    (hkind : s.kind = k) (hk : k.isClausal = true) (h : ∃ ts, s.advance.Passes ts s' ∧ Q ts) :
    ∃ ts, s.Passes ts s' ∧ Q ts := by
  subst hkind
  obtain ⟨ts, hts, hQts⟩ := h
  have hend : s.kind ≠ .endOfInput := by
    intro hend
    rw [hend] at hk
    cases hk
  exact ⟨s.current :: ts, .advance (hs.ahead_ne_nil hend) hts,
    hQ.append (hQ.single (hk : s.current.kind.isClausal = true)) hQts⟩

/-- The attributes that are skipped have a property of clauses. -/
theorem skipAttributes (hQ : Clausal Q) :
    Passing Q fun s => s.skipAttributes.map (Prod.mk ()) where
  passes {s s' a} hs h := by
    cases hread : s.skipAttributes with
    | error fault => simp [hread, Except.map] at h
    | ok s₁ =>
        rw [hread] at h
        cases h
        obtain ⟨ts, hts, hattributes⟩ := exists_of_skipAttributes hs hread
        refine ⟨ts, hts, ?_⟩
        cases hattributes with
        | none => exact hQ.nil
        | some hword hopen hclose hinside => exact hQ.attributes hword hopen hclose hinside

/-- An expected word has a property of clauses. -/
theorem expectWord (hQ : Clausal Q) (word : String) :
    Passing Q fun s => (s.expectWord word).map (Prod.mk ()) := by
  have haccept : Passing Q (accept (only (.identifier word)) (.word word)) := by
    refine .accept (by simp [only]) fun {t a} h => hQ.single ?_
    unfold only at h
    split at h
    · next hkind => rw [hkind]; rfl
    · cases h
  refine haccept.congr fun s => ?_
  rw [expectWord_eq]
  cases accept (only (.identifier word)) (.word word) s <;> rfl

/-- An expected identifier has a property of clauses. -/
theorem expectIdentifier (hQ : Clausal Q) : Passing Q expectIdentifier := by
  refine (Passing.accept rfl fun {t a} h => hQ.single ?_).congr expectIdentifier_eq
  cases hkind : t.kind <;> simp [hkind, identifier?] at h
  rfl

/-- A specifier and its attributes have a property of clauses. -/
theorem specifier (hQ : Clausal Q) : Passing Q specifier := by
  have hspecifier : Passing Q expectSpecifier := by
    refine (Passing.accept rfl fun {t a} h => hQ.single ?_).congr expectSpecifier_eq
    cases hkind : t.kind <;> simp [hkind, specifier?] at h <;> rfl
  exact .bind hQ.toJoins hspecifier fun source =>
    .andThen hQ.toJoins hQ.skipAttributes (.pure hQ.toJoins source)

/-- A default binding and the comma behind it have a property of clauses. -/
theorem defaultBinding (hQ : Clausal Q) : Passing Q fun s => .ok (defaultBinding s) where
  passes {s s' a} hs h := by
    rw [defaultBinding_eq] at h
    cases hread : identifier? s.kind with
    | none =>
        rw [hread] at h
        cases h
        exact ⟨[], .refl s, hQ.nil⟩
    | some name =>
        rw [hread] at h
        obtain ⟨name', hkind⟩ : ∃ name', s.kind = .identifier name' := by
          cases hkind : s.kind <;> simp [hkind, identifier?] at hread
          exact ⟨_, rfl⟩
        dsimp only [Option.elim] at h
        split at h
        · next hcomma =>
            cases h
            exact hQ.advance hs hkind rfl
              (hQ.advance (hs.of_follows (follows_advance s)) hcomma rfl ⟨[], .refl _, hQ.nil⟩)
        · split at h <;> cases h
          · exact hQ.advance hs hkind rfl ⟨[], .refl _, hQ.nil⟩
          · exact ⟨[], .refl s, hQ.nil⟩

/-- Names in braces behind the opening brace. -/
theorem closedList (hQ : Clausal Q) {α : Type}
    {item : TokenStream → Except SyntaxFault (α × TokenStream)} (hitem : Passing Named item)
    {n : Nat} {s s' : TokenStream} {as : List α} (hs : s.Closed) (hkind : s.kind = .leftBrace)
    (h : closedList item n s.advance = .ok (as, s')) : ∃ ts, s.Passes ts s' ∧ Q ts := by
  obtain ⟨ts, closing, hts, hnamed, hclosing⟩ :=
    exists_of_closedList hitem (hs.of_follows (follows_advance s)) h
  exact ⟨s.current :: ts ++ [closing], .advance (hs.ahead_ne_nil (by simp [hkind])) hts,
    hQ.names hkind hclosing hnamed⟩

/-- The bindings behind a default binding have a property of clauses. -/
theorem furtherBindings (hQ : Clausal Q) (n : Nat) (hasDefault : Bool) :
    Passing Q (furtherBindings n hasDefault) where
  passes {s s' a} hs h := by
    rw [furtherBindings_eq, importNames_eq, ← closedList_eq] at h
    split at h
    · next hstar =>
        have hnamespace : Passing Q fun s => s.expectWord "as" >>= fun s =>
            s.expectIdentifier >>= fun r => .ok ([ImportBinding.namespace r.1], r.2) :=
          .andThen hQ.toJoins (hQ.expectWord "as")
            (.bind hQ.toJoins hQ.expectIdentifier fun name =>
              .pure hQ.toJoins [ImportBinding.namespace name])
        exact hQ.advance hs hstar rfl
          (hnamespace.passes (hs.of_follows (follows_advance s)) h)
    · split at h
      · next hbrace => exact hQ.closedList named_importedName hs hbrace h
      · split at h <;> cases h
        exact ⟨[], .refl _, hQ.nil⟩

/-- The tokens of an import behind its keyword have a property of clauses. -/
theorem importClause (hQ : Clausal Q) (n : Nat) : Passing Q (importClause n) where
  passes {s s' a} hs h := by
    unfold ModuleGraph.Parser.importClause at h
    cases hstring : string? s.kind with
    | some url =>
        rw [hstring] at h
        obtain ⟨text, hkind⟩ : ∃ text, s.kind = .string text := by
          cases hkind : s.kind <;> simp [hkind, string?] at hstring
          exact ⟨_, rfl⟩
        have hattributes : Passing Q fun s => s.skipAttributes >>= fun s =>
            .ok ((Specifier.url url, ([] : List ImportBinding)), s) :=
          .andThen hQ.toJoins hQ.skipAttributes (.pure hQ.toJoins (Specifier.url url, []))
        exact hQ.advance hs hkind rfl
          (hattributes.passes (hs.of_follows (follows_advance s)) h)
    | none =>
        rw [hstring] at h
        have hclause : Passing Q fun s => Except.ok (Parser.defaultBinding s) >>= fun r =>
            Parser.furtherBindings n (!r.1.isEmpty) r.2 >>= fun q => q.2.expectWord "from" >>=
              fun s => Parser.specifier s >>= fun p => .ok ((p.1, r.1 ++ q.1), p.2) :=
          .bind hQ.toJoins hQ.defaultBinding fun first =>
            .bind hQ.toJoins (hQ.furtherBindings n (!first.isEmpty)) fun more =>
              .andThen hQ.toJoins (hQ.expectWord "from")
                (.bind hQ.toJoins hQ.specifier fun source =>
                  .pure hQ.toJoins (source, first ++ more))
        exact hclause.passes hs h

/-- The tokens of an export of names, from its opening brace on, have a property of clauses. -/
theorem namesClause (hQ : Clausal Q) {n : Nat} {s s' : TokenStream}
    {x : List ExportedName × Option Specifier} (hs : s.Closed) (hkind : s.kind = .leftBrace)
    (h : namesClause n s.advance = .ok (x, s')) : ∃ ts, s.Passes ts s' ∧ Q ts := by
  unfold ModuleGraph.Parser.namesClause at h
  rw [exportedNames_eq, ← closedList_eq] at h
  obtain ⟨⟨names, s₁⟩, hnames, h⟩ := Except.bind_eq_ok h
  obtain ⟨ts, hts, hQts⟩ := hQ.closedList named_exportedName hs hkind hnames
  have hspecifier : Passing Q fun s => Parser.specifier s >>= fun q => .ok (some q.1, q.2) :=
    .bind hQ.toJoins hQ.specifier fun source => .pure hQ.toJoins (some source)
  have hsource : Passing Q fun s =>
      (if s.atWord "from" then Parser.specifier s.advance >>= fun q => .ok (some q.1, q.2)
        else .ok (none, s)) >>= fun q => .ok ((names, q.1), q.2) :=
    .bind hQ.toJoins ((Passing.token hQ.toJoins (k := .identifier "from") (by simp)
      (fun h => hQ.single (by rw [h]; rfl)) hspecifier (.pure hQ.toJoins none)).congr fun s => by
        simp only [atWord_iff]) fun source => .pure hQ.toJoins (names, source)
  obtain ⟨us, hus, hQus⟩ := hsource.passes (hs.of_follows hts.follows) h
  exact ⟨ts ++ us, hts.trans hus, hQ.append hQts hQus⟩

/-- The clause behind `export *`, where the property holds of its alias. -/
theorem allClause (hQ : Clausal Q) {s s' : TokenStream} {source : Specifier}
    {name? : Option String} (halias : ∀ t : Token, (exportName? t.kind).isSome →
      exportName? t.kind = name? → Q [t]) (hs : s.Closed)
    (h : allClause s = .ok ((source, name?), s')) : ∃ ts, s.Passes ts s' ∧ Q ts := by
  have hsource : ∀ name? : Option String, Passing Q fun s =>
      s.expectWord "from" >>= fun s => Parser.specifier s >>= fun q => .ok ((q.1, name?), q.2) :=
    fun name? => .andThen hQ.toJoins (hQ.expectWord "from")
      (.bind hQ.toJoins hQ.specifier fun source => .pure hQ.toJoins (source, name?))
  unfold ModuleGraph.Parser.allClause at h
  obtain ⟨⟨alias?, s₁⟩, hread, h⟩ := Except.bind_eq_ok h
  have hname : alias? = name? := by
    obtain ⟨s₂, -, h⟩ := Except.bind_eq_ok h
    obtain ⟨⟨source', s₃⟩, -, h⟩ := Except.bind_eq_ok h
    cases h
    rfl
  subst hname
  split at hread
  · next hat =>
      obtain ⟨⟨name, s₂⟩, hname, hread⟩ := Except.bind_eq_ok hread
      cases hread
      rw [expectExportName_eq] at hname
      obtain ⟨hkind, rfl⟩ := accept_eq_ok hname
      have has : s.kind = .identifier "as" := atWord_iff.1 hat
      have hs₁ := hs.of_follows (follows_advance s)
      have hend : s.advance.kind ≠ .endOfInput := by
        intro hend
        simp [hend, exportName?] at hkind
      have hkind' : exportName? s.advance.current.kind = some name := hkind
      obtain ⟨ts, hts, hQts⟩ :=
        (hsource (some name)).passes (hs₁.of_follows (follows_advance s.advance)) h
      exact hQ.advance hs has rfl ⟨_, .advance (hs₁.ahead_ne_nil hend) hts,
        hQ.append (halias s.advance.current (by simp [hkind']) hkind') hQts⟩
  · cases hread
    exact (hsource none).passes hs h

/-- The name of a module declaration, where it has one. -/
theorem moduleName (hQ : Clausal Q) {name : Option String} {s s' : TokenStream} (hs : s.Closed)
    (h : moduleName s = (name, s')) : ∃ ts, s.Passes ts s' ∧ Q ts := by
  unfold ModuleGraph.Parser.moduleName at h
  cases hkind : s.kind <;> simp only [hkind, identifier?, Option.elim] at h <;> cases h
  case identifier => exact hQ.advance hs hkind rfl ⟨[], .refl _, hQ.nil⟩
  all_goals exact ⟨[], .refl _, hQ.nil⟩

end Clausal

/-- A clause with its end: the last token of the statement is the last one that was passed. The
clause is passed from `s₀` on, which stands behind the token `u`. -/
theorem exists_of_ended {α : Type} {f : TokenStream → Except SyntaxFault (α × TokenStream)}
    {build : α → Span → Statement} {Q : α → List Token → Prop} (hQ : ∀ a, Clausal (Q a))
    {start : Span} {s₀ s s' : TokenStream} {statement : Statement} {u : Token} (hs₀ : s₀.Closed)
    (hu : s₀.previous = some u)
    (hf : ∀ {a : α} {s₁ : TokenStream}, f s = .ok (a, s₁) → ∃ ts, s₀.Passes ts s₁ ∧ Q a ts)
    (h : ended f build start s = .ok (statement, s')) :
    ∃ a ts front last, statement = build a (start.cover last.span) ∧ s₀.Passes ts s' ∧
      Q a ts ∧ u :: ts = front ++ [last] := by
  obtain ⟨⟨a, s₁⟩, hread, h⟩ := Except.bind_eq_ok h
  obtain ⟨⟨last, s₂⟩, hend, h⟩ := Except.bind_eq_ok h
  cases h
  obtain ⟨ts, hts, hQts⟩ := hf hread
  obtain ⟨front, v, hv, htokens⟩ := hts.exists_previous hu
  rw [endStatement_eq] at hend
  split at hend
  · next hsemicolon =>
      cases hend
      have hkind : s₁.current.kind = .semicolon := hsemicolon
      have hpass := Passes.single (hs₀.of_follows hts.follows) (by simp [hsemicolon])
      exact ⟨a, ts ++ [s₁.current], u :: ts, s₁.current, rfl, hts.trans hpass,
        (hQ a).append hQts ((hQ a).single (by rw [hkind]; rfl)), rfl⟩
  · split at hend <;> cases hend
    refine ⟨a, ts, front, v, ?_, hts, hQts, htokens⟩
    rw [hv]
    rfl

/-! ## Words that lead declarations -/

/-- Outside of the brackets among some tokens the words that lead declarations are as `A` says. -/
def Quiet (A : Token → Prop) (ts : List Token) : Prop :=
  ∀ rest, Guarded 0 (fun _ => A) ts rest

namespace Quiet

variable {A : Token → Prop} {t : Token} {ts : List Token}

/-- Quiet rows of tokens join to a quiet one. -/
theorem joins : Joins (Quiet A) where
  nil _ := .nil
  append hts hus rest := .append (hts _) (hus rest) id id

/-- A plain token is quiet. -/
theorem of_isPlain (h : t.kind.isPlain = true) : Quiet A [t] :=
  fun _ => .cons_plain h .nil id

/-- A token that is no bracket. -/
theorem single (hopen : t.kind.isOpenBracket = false) (hclose : t.kind.isCloseBracket = false)
    (h : ∀ after, t.Leads after → A t) : Quiet A [t] := by
  intro rest
  have hdepth : depthAfter t.kind 0 = 0 := by simp [depthAfter, hopen, hclose]
  exact .cons (by simp [hclose]) (hdepth.symm ▸ .nil) (fun _ hleads => h _ hleads) fun _ => id

/-- Tokens in braces are quiet if no closing brace is among them. -/
theorem braced {opening closing : Token} (hopen : opening.kind = .leftBrace)
    (hclose : closing.kind = .rightBrace) (hts : Braceless ts) :
    Quiet A (opening :: ts ++ [closing]) := by
  refine fun rest => .braces hopen hclose fun {n stack} h pre hpre => ?_
  have hinside := suffix_brackets (fun t ht => hts t (hpre.subset ht))
    (List.suffix_rfl (l := .leftBrace :: stack))
  have hlength := hinside.length_le
  rw [List.length_cons] at hlength
  omega

/-- The tokens of clauses are quiet. -/
theorem clausal : Clausal (Quiet A) where
  toJoins := joins
  single {t} h := of_isPlain (by cases ht : t.kind <;> simp [ht, Token.Kind.isClausal] at h <;> rfl)
  names hopen hclose hts := braced hopen hclose hts.braceless
  attributes {word opening closing ts} hword hopen hclose hts := by
    have hplain : Quiet A [word] := of_isPlain (by obtain hk | hk := hword <;> rw [hk] <;> rfl)
    have hbraced : Quiet A (opening :: ts ++ [closing]) := braced hopen hclose hts
    simpa using joins.append hplain hbraced

/-- The alias behind `export *` can be one of the words that lead declarations. -/
theorem ofAlias (name? : Option String) (t : Token) (hsome : (exportName? t.kind).isSome)
    (hname : exportName? t.kind = name?) :
    Quiet (fun t => ∃ k, t.kind = .keyword k ∧ name? = some k.word) [t] := by
  refine .single ?_ ?_ fun after hleads => ?_
  · cases ht : t.kind <;> first | rfl | simp [ht, exportName?] at hsome
  · cases ht : t.kind <;> first | rfl | simp [ht, exportName?] at hsome
  · obtain ht | ht := hleads.kind <;> rw [ht] at hname <;> exact ⟨_, ht, hname.symm⟩

end Quiet

end ModuleGraph
