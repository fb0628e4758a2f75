import ModuleGraph.Proofs.Grammar
import ModuleGraph.Proofs.Printing

/-!
# Reading written declarations back

The parser reads the text of declarations as the statements that they stand for
(`SyntaxTree.parse_written`). Words such as `from`, `as` and `module` are told from names by what
comes next, so each reader is followed over the tokens that are written for it and up to the token
behind them.
-/

namespace ModuleGraph

open TokenStream ModuleGraph.Parser Written

/-- Written tokens and then the end of the input come next, and no property name. -/
structure TokenStream.Shows (s : TokenStream) (ps : List Piece) : Prop where
  tokens : ∃ o newline, s.toList = Piece.tokens o newline ps
  free : s.afterMemberAccess = false

/-- No written token opens a parenthesis or accesses a property. -/
theorem Lexeme.kind_ne (l : Lexeme) :
    l.kind ≠ .leftParen ∧ l.kind ≠ .dot ∧ ∀ text, l.kind ≠ .operator text := by
  cases l with
  | word w =>
      rw [Lexeme.kind, Token.wordKind]
      split <;> simp
  | _ => simp [Lexeme.kind]

namespace TokenStream.Shows

variable {s : TokenStream} {p q : Piece} {ps : List Piece}

/-- Where no written token is left, the input ends. -/
theorem kind_nil (h : s.Shows []) : s.kind = .endOfInput := by
  obtain ⟨o, newline, htokens⟩ := h.tokens
  rw [toList, Piece.tokens] at htokens
  rw [kind, (List.cons.inj htokens).1]

/-- The first written token is the current one. -/
theorem kind (h : s.Shows (p :: ps)) : s.kind = p.lexeme.kind := by
  obtain ⟨o, newline, htokens⟩ := h.tokens
  rw [toList, Piece.tokens] at htokens
  rw [TokenStream.kind, (List.cons.inj htokens).1]

/-- Behind a written token the others come next. -/
theorem exists_toList_advance (h : s.Shows (p :: ps)) :
    ∃ o, s.advance.toList = Piece.tokens o p.endsLine ps := by
  obtain ⟨o, newline, htokens⟩ := h.tokens
  rw [toList, Piece.tokens] at htokens
  have hahead := (List.cons.inj htokens).2
  refine ⟨_, Eq.trans ?_ hahead⟩
  unfold TokenStream.advance
  cases hts : s.ahead with
  | nil =>
      rw [hts] at hahead
      cases ps <;> cases hahead
  | cons t ts => rfl

/-- Behind a written token the others show. -/
theorem advance (h : s.Shows (p :: ps)) : s.advance.Shows ps where
  tokens := by
    obtain ⟨o, htokens⟩ := h.exists_toList_advance
    exact ⟨o, p.endsLine, htokens⟩
  free := by
    have hkind : s.current.kind = p.lexeme.kind := h.kind
    unfold TokenStream.advance
    split
    · exact h.free
    · simp [afterMemberAccess, hkind, p.lexeme.kind_ne]

/-- The second token stands on a new line if the first one ends its line. -/
theorem newlineBefore (h : s.Shows (p :: ps)) : s.second.newlineBefore = p.endsLine := by
  obtain ⟨o, htokens⟩ := h.exists_toList_advance
  cases ps <;> rw [toList, Piece.tokens] at htokens <;> rw [second, (List.cons.inj htokens).1]

/-- A written word that is an identifier. -/
theorem identifier {n : LocalName} {e : Bool} (h : s.Shows (⟨.word n.toWord, e⟩ :: ps)) :
    s.kind = .identifier n.name := by
  rw [h.kind]
  exact n.wordKind_name

/-- The word `import` and another written token behind it start an import declaration. -/
theorem atImport {e : Bool} (h : s.Shows (⟨importWord, e⟩ :: p :: ps)) : s.atImport = true := by
  have hkind : s.kind = .keyword .«import» := h.kind
  have hsecond : s.second.kind = p.lexeme.kind := h.advance.kind
  simp [TokenStream.atImport, atKeyword, hkind, hsecond, p.lexeme.kind_ne]

/-- The word `module`, a name on its line and a brace start a module declaration. -/
theorem atModule {n : LocalName} {e e' : Bool} (h : s.Shows
    (⟨moduleWord, false⟩ :: ⟨.word n.toWord, e⟩ :: ⟨.leftBrace, e'⟩ :: ps)) :
    s.atModule = true := by
  have hword : s.atWord "module" = true := atWord_iff.2 h.kind
  have hname : isName s.second = true := by
    rw [isName_eq, show s.second.kind = .identifier n.name from h.advance.identifier]
    rfl
  have hopen : s.third.kind = .leftBrace := h.advance.advance.kind
  simp [TokenStream.atModule, atModuleWord, hword, h.free, hname, h.newlineBefore, hopen]

end TokenStream.Shows

/-! ## Names -/

namespace Written

variable {s : TokenStream} {ps : List Piece} {e : Bool}

/-- A name as it is written stands for its value. -/
theorem exportName?_lexeme (n : Name) : exportName? n.lexeme.kind = some n.value := by
  cases n with
  | word w =>
      rw [Name.lexeme, Lexeme.kind, Token.wordKind, Name.value]
      cases hk : Keyword.ofWord? w.name with
      | none => rfl
      | some k => exact congrArg some (Keyword.ofWord?_eq_some_iff.1 hk)
  | string value => rfl

/-- A written name is read as an export name. -/
theorem expectExportName_written {n : Name} (h : s.Shows (⟨n.lexeme, e⟩ :: ps)) :
    s.expectExportName = .ok (n.value, s.advance) := by
  rw [expectExportName_eq, accept, h.kind, exportName?_lexeme]

/-- A written local name is read as an identifier. -/
theorem expectIdentifier_written {n : LocalName} (h : s.Shows (⟨.word n.toWord, e⟩ :: ps)) :
    s.expectIdentifier = .ok (n.name, s.advance) := by
  rw [expectIdentifier_eq, accept, h.identifier]
  rfl

/-- The written word `from` is read. -/
theorem expectWord_from (h : s.Shows (⟨fromWord, e⟩ :: ps)) :
    s.expectWord "from" = .ok s.advance := by
  rw [expectWord, if_pos (atWord_iff.2 h.kind)]

/-- The written word `as` is read. -/
theorem expectWord_as (h : s.Shows (⟨asWord, e⟩ :: ps)) :
    s.expectWord "as" = .ok s.advance := by
  rw [expectWord, if_pos (atWord_iff.2 h.kind)]

/-- A mark that stands behind an entry: it is no `as`. -/
def EndsEntry (l : Lexeme) : Prop :=
  l = .comma ∨ l = .rightBrace

/-- No word stands where a mark ends an entry. -/
theorem atWord_of_endsEntry {l : Lexeme} (hl : EndsEntry l) (word : String)
    (h : s.Shows (⟨l, e⟩ :: ps)) : s.atWord word = false := by
  rw [Bool.eq_false_iff, Ne, atWord_iff, h.kind]
  rcases hl with rfl | rfl <;> simp [Lexeme.kind]

/-- An entry is read up to the mark behind it. -/
theorem entry_written {α β : Type} {toName : α → Name}
    (expect : TokenStream → Except SyntaxFault (String × TokenStream))
    (hexpect : ∀ {a s e ps}, s.Shows (⟨(toName a).lexeme, e⟩ :: ps) →
      expect s = .ok ((toName a).value, s.advance))
    (build : String → String → β) (entry : Entry α) {l : Lexeme} (hl : EndsEntry l)
    (h : s.Shows (inline (entry.lexemes toName) ++ ⟨l, e⟩ :: ps)) :
    ∃ s', (s.expectExportName >>= fun r => aliasOr expect r.1 r.2 >>= fun q =>
      .ok (build r.1 q.1, q.2)) = .ok (entry.value build toName, s') ∧
        s'.Shows (⟨l, e⟩ :: ps) := by
  cases entry with
  | plain a =>
      refine ⟨s.advance, ?_, h.advance⟩
      rw [expectExportName_written h]
      show aliasOr expect _ s.advance >>= _ = _
      rw [aliasOr_bind, atWord_of_endsEntry hl "as" h.advance]
      rfl
  | renamed n a =>
      refine ⟨s.advance.advance.advance, ?_, h.advance.advance.advance⟩
      rw [expectExportName_written h]
      show aliasOr expect _ s.advance >>= _ = _
      rw [aliasOr_bind, if_pos (atWord_iff.2 h.advance.kind), hexpect h.advance.advance]
      rfl

/-- A written entry of an import is read up to the mark behind it. -/
theorem importedName_written (entry : Entry LocalName) {l : Lexeme} (hl : EndsEntry l)
    (h : s.Shows (inline (entry.lexemes .ofLocal) ++ ⟨l, e⟩ :: ps)) :
    ∃ s', importedName s = .ok (entry.value .named .ofLocal, s') ∧ s'.Shows (⟨l, e⟩ :: ps) :=
  entry_written expectIdentifier expectIdentifier_written ImportBinding.named entry hl h

/-- A written entry of an export is read up to the mark behind it. -/
theorem exportedName_written (entry : Entry Name) {l : Lexeme} (hl : EndsEntry l)
    (h : s.Shows (inline (entry.lexemes id) ++ ⟨l, e⟩ :: ps)) :
    ∃ s', exportedName s = .ok (entry.value .mk id, s') ∧ s'.Shows (⟨l, e⟩ :: ps) :=
  entry_written expectExportName expectExportName_written ExportedName.mk entry hl h

/-- Tokens on one line are written one behind the other. -/
theorem inline_append (ls ms : List Lexeme) (ps : List Piece) :
    inline (ls ++ ms) ++ ps = inline ls ++ (inline ms ++ ps) := by
  simp [inline]

/-- Tokens on one line are written with the next one between them. -/
theorem inline_append_cons (ls ms : List Lexeme) (l : Lexeme) (ps : List Piece) :
    inline (ls ++ l :: ms) ++ ps = inline ls ++ ⟨l, false⟩ :: (inline ms ++ ps) := by
  simp [inline]

/-- No written entry starts with a closing brace. -/
theorem kind_ne_rightBrace {α : Type} (toName : α → Name) (entry : Entry α)
    (h : s.Shows (inline (entry.lexemes toName) ++ ps)) : s.kind ≠ .rightBrace := by
  have hname : ∃ n : Name, s.kind = n.lexeme.kind := by
    cases entry with
    | plain a => exact ⟨toName a, h.kind⟩
    | renamed n a => exact ⟨n, h.kind⟩
  obtain ⟨n, hkind⟩ := hname
  intro hbrace
  have hvalue := exportName?_lexeme n
  rw [← hkind, hbrace] at hvalue
  cases hvalue

/-- Entries are read up to and with the brace behind them. -/
theorem closedList_written {α β : Type} {toName : α → Name} {value : Entry α → β}
    {item : TokenStream → Except SyntaxFault (β × TokenStream)}
    (hitem : ∀ {s : TokenStream} {e : Bool} {ps : List Piece} (entry : Entry α) {l : Lexeme},
      EndsEntry l → s.Shows (inline (entry.lexemes toName) ++ ⟨l, e⟩ :: ps) →
        ∃ s', item s = .ok (value entry, s') ∧ s'.Shows (⟨l, e⟩ :: ps))
    (entries : List (Entry α)) {n : Nat} (hn : entries.length < n)
    (h : s.Shows (inline (commas (entries.map (Entry.lexemes toName))) ++
      ⟨.rightBrace, e⟩ :: ps)) :
    ∃ s', closedList item n s = .ok (entries.map value, s') ∧ s'.Shows ps := by
  induction entries generalizing s n with
  | nil =>
      obtain ⟨n, rfl⟩ : ∃ n', n = n' + 1 := ⟨n - 1, by omega⟩
      have hbrace : s.kind = .rightBrace := h.kind
      exact ⟨s.advance, by rw [closedList, if_pos hbrace]; rfl, h.advance⟩
  | cons entry entries ih =>
      obtain ⟨n, rfl⟩ : ∃ n', n = n' + 1 := ⟨n - 1, by omega⟩
      cases entries with
      | nil =>
          -- the brace or the comma in front tells whether another entry follows
          have hbrace := kind_ne_rightBrace toName entry h
          obtain ⟨s₁, hread, h₁⟩ := hitem entry (.inr rfl) h
          have hclose : s₁.kind = .rightBrace := h₁.kind
          refine ⟨s₁.advance, ?_, h₁.advance⟩
          rw [closedList, if_neg hbrace, hread]
          show (if s₁.kind = .comma then _ else _) = _
          rw [if_neg (by simp [hclose]), accept, only, if_pos hclose]
          rfl
      | cons entry' entries =>
          rw [List.map_cons, List.map_cons, commas, inline_append_cons] at h
          have hbrace := kind_ne_rightBrace toName entry h
          obtain ⟨s₁, hread, h₁⟩ := hitem entry (.inl rfl) h
          have hcomma : s₁.kind = .comma := h₁.kind
          obtain ⟨s', htail, h'⟩ := ih (Nat.lt_of_succ_lt_succ hn) h₁.advance
          refine ⟨s', ?_, h'⟩
          rw [closedList, if_neg hbrace, hread]
          show (if s₁.kind = .comma then _ else _) = _
          rw [if_pos hcomma, htail]
          rfl

/-- Entries in braces are read behind the opening one. -/
theorem importList_written (entries : List (Entry LocalName)) {n : Nat} (hn : entries.length < n)
    (h : s.Shows (inline (braced .ofLocal entries) ++ ps)) :
    ∃ s', (importNames n s.advance >>= fun r => r.2.expect .rightBrace >>= fun q =>
      .ok (r.1, q.2)) = .ok (entries.map (Entry.value .named .ofLocal), s') ∧ s'.Shows ps := by
  rw [importNames_eq, ← closedList_eq]
  rw [braced, inline_append_cons] at h
  exact closedList_written importedName_written entries hn h.advance

/-- Written names of an export are read with their closing brace. -/
theorem exportList_written (entries : List (Entry Name)) {n : Nat} (hn : entries.length < n)
    (h : s.Shows (inline (braced id entries) ++ ps)) :
    ∃ s', (exportedNames n s.advance >>= fun r => r.2.expect .rightBrace >>= fun q =>
      .ok (r.1, q.2)) = .ok (entries.map (Entry.value .mk id), s') ∧ s'.Shows ps := by
  rw [exportedNames_eq, ← closedList_eq]
  rw [braced, inline_append_cons] at h
  exact closedList_written exportedName_written entries hn h.advance

/-! ## Clauses -/

/-- No attributes stand where a semicolon does. -/
theorem skipAttributes_semicolon (h : s.Shows (⟨.semicolon, e⟩ :: ps)) :
    s.skipAttributes = .ok s := by
  have hkind : s.kind = .semicolon := h.kind
  have hat : atAttributes s = false := by
    simp [atAttributes, atKeyword, atWord, Token.isWord, hkind,
      show s.current.kind = .semicolon from hkind]
  rw [skipAttributes_eq, hat]
  rfl

/-- A written source is read as its specifier. -/
theorem specifier_written {source : Source} {e' : Bool}
    (h : s.Shows (⟨source.lexeme, e'⟩ :: ⟨.semicolon, e⟩ :: ps)) :
    specifier s = .ok (source.specifier, s.advance) := by
  have hsource : s.expectSpecifier = .ok (source.specifier, s.advance) := by
    rw [expectSpecifier_eq, accept]
    cases source with
    | url text => rw [h.kind]; rfl
    | fragment n => rw [h.identifier]; rfl
  rw [specifier, hsource]
  show (s.advance.skipAttributes >>= fun s => .ok (_, s)) = _
  rw [skipAttributes_semicolon h.advance]
  rfl

/-- How many names a list in braces holds. -/
def Bindings.size : Bindings → Nat
  | .names entries => entries.length
  | .namespace _ => 0

/-- Bindings are read up to the token behind them. -/
theorem furtherBindings_written (b : Bindings) {n : Nat} (hn : b.size < n) (hasDefault : Bool)
    (h : s.Shows (inline b.lexemes ++ ps)) :
    ∃ s', furtherBindings n hasDefault s = .ok (b.list, s') ∧ s'.Shows ps := by
  cases b with
  | names entries =>
      have hbrace : s.kind = .leftBrace := h.kind
      obtain ⟨s', hread, h'⟩ := importList_written entries hn h
      refine ⟨s', ?_, h'⟩
      rw [furtherBindings_eq, if_neg (by simp [hbrace]), if_pos hbrace]
      exact hread
  | «namespace» name =>
      have hstar : s.kind = .star := h.kind
      refine ⟨s.advance.advance.advance, ?_, h.advance.advance.advance⟩
      rw [furtherBindings_eq, if_pos hstar, expectWord_as h.advance]
      show (s.advance.advance.expectIdentifier >>= _) = _
      rw [expectIdentifier_written h.advance.advance]
      rfl

/-- The word `from` and a written source are read. -/
theorem source_written {α : Type} {source : Source} (a : α)
    (h : s.Shows (inline [fromWord, source.lexeme] ++ ⟨.semicolon, e⟩ :: ps)) :
    (s.expectWord "from" >>= fun s => specifier s >>= fun q => .ok ((q.1, a), q.2)) =
      .ok ((source.specifier, a), s.advance.advance) := by
  rw [expectWord_from h]
  show (specifier s.advance >>= _) = _
  rw [specifier_written h.advance]
  rfl

/-- How many names a clause holds in braces. -/
def Clause.size : Clause → Nat
  | .default _ => 0
  | .bindings b | .both _ b => b.size

/-- Where bindings come next, there is no default binding. -/
theorem identifier?_bindings (b : Bindings) (h : s.Shows (inline b.lexemes ++ ps)) :
    string? s.kind = none ∧ identifier? s.kind = none := by
  cases b with
  | names entries =>
      have hbrace : s.kind = .leftBrace := h.kind
      rw [hbrace]
      exact ⟨rfl, rfl⟩
  | «namespace» name =>
      have hstar : s.kind = .star := h.kind
      rw [hstar]
      exact ⟨rfl, rfl⟩

/-- A clause is read by its default binding, its further ones and its source. -/
theorem importClause_of_bindings {source : Source} {n : Nat} {first more : List ImportBinding}
    {s₁ s₂ : TokenStream} (hstring : string? s.kind = none)
    (hfirst : defaultBinding s = (first, s₁))
    (hmore : furtherBindings n (!first.isEmpty) s₁ = .ok (more, s₂))
    (h : s₂.Shows (inline [fromWord, source.lexeme] ++ ⟨.semicolon, e⟩ :: ps)) :
    ∃ s', importClause n s = .ok ((source.specifier, first ++ more), s') ∧
      s'.Shows (⟨.semicolon, e⟩ :: ps) := by
  refine ⟨s₂.advance.advance, ?_, h.advance.advance⟩
  rw [importClause, hstring, hfirst]
  show (furtherBindings n (!first.isEmpty) s₁ >>= _) = _
  rw [hmore]
  exact source_written (first ++ more) h

/-- An import's clause and source are read up to the semicolon behind them. -/
theorem importClause_written (clause : Clause) (source : Source) {n : Nat} (hn : clause.size < n)
    (h : s.Shows (inline (clause.lexemes ++ [fromWord, source.lexeme]) ++ ⟨.semicolon, e⟩ :: ps)) :
    ∃ s', importClause n s = .ok ((source.specifier, clause.list), s') ∧
      s'.Shows (⟨.semicolon, e⟩ :: ps) := by
  rw [inline_append] at h
  cases clause with
  | default name =>
      have hname := h.identifier
      have hfrom : s.advance.kind = .identifier "from" := h.advance.kind
      have hfirst : defaultBinding s = ([.default name.name], s.advance) := by
        rw [defaultBinding_eq, hname, identifier?]
        simp [hfrom]
      have hmore : furtherBindings n true s.advance = .ok ([], s.advance) := by
        simp [furtherBindings_eq, hfrom]
      exact importClause_of_bindings (by rw [hname]; rfl) hfirst hmore h.advance
  | bindings b =>
      obtain ⟨hstring, hidentifier⟩ := identifier?_bindings b h
      obtain ⟨s₂, hread, h₂⟩ := furtherBindings_written b hn false h
      have hfirst : defaultBinding s = ([], s) := by rw [defaultBinding_eq, hidentifier]; rfl
      exact importClause_of_bindings hstring hfirst hread h₂
  | both name b =>
      have hname := h.identifier
      have hcomma : s.advance.kind = .comma := h.advance.kind
      have hfirst : defaultBinding s = ([.default name.name], s.advance.advance) := by
        rw [defaultBinding_eq, hname, identifier?]
        simp [hcomma]
      obtain ⟨s₂, hread, h₂⟩ := furtherBindings_written b hn true h.advance.advance
      exact importClause_of_bindings (by rw [hname]; rfl) hfirst hread h₂

/-- A side-effect import is read up to the semicolon behind it. -/
theorem importClause_url {url : String} {e' : Bool} (n : Nat)
    (h : s.Shows (⟨.string url, e'⟩ :: ⟨.semicolon, e⟩ :: ps)) :
    importClause n s = .ok ((.url url, []), s.advance) := by
  have hurl : s.kind = .string url := h.kind
  rw [importClause, hurl]
  show (s.advance.skipAttributes >>= fun s => .ok (_, s)) = _
  rw [skipAttributes_semicolon h.advance]
  rfl

/-- A written `export *` is read up to the semicolon behind it. -/
theorem allClause_written (name? : Option Name) (source : Source)
    (h : s.Shows (inline ((name?.elim [] fun n => [asWord, n.lexeme]) ++
      [fromWord, source.lexeme]) ++ ⟨.semicolon, e⟩ :: ps)) :
    ∃ s', allClause s = .ok ((source.specifier, name?.map Name.value), s') ∧
      s'.Shows (⟨.semicolon, e⟩ :: ps) := by
  cases name? with
  | none =>
      have hfrom : s.kind = .identifier "from" := h.kind
      refine ⟨s.advance.advance, ?_, h.advance.advance⟩
      rw [allClause, if_neg (by simp [atWord_iff, hfrom])]
      exact source_written none h
  | some name =>
      refine ⟨s.advance.advance.advance.advance, ?_, h.advance.advance.advance.advance⟩
      rw [allClause, if_pos (atWord_iff.2 h.kind), expectExportName_written h.advance]
      exact source_written (some name.value) h.advance.advance

/-- The source of an export of names, if it has one, is read up to the semicolon behind it. -/
theorem exportSource_written (names : List ExportedName) (source? : Option Source)
    (h : s.Shows (inline (source?.elim [] fun source => [fromWord, source.lexeme]) ++
      ⟨.semicolon, e⟩ :: ps)) :
    ∃ s', ((if s.atWord "from" then specifier s.advance >>= fun q => .ok (some q.1, q.2)
      else .ok (none, s)) >>= fun q => .ok ((names, q.1), q.2)) =
        .ok ((names, source?.map Source.specifier), s') ∧ s'.Shows (⟨.semicolon, e⟩ :: ps) := by
  cases source? with
  | none =>
      have hsemicolon : s.kind = .semicolon := h.kind
      refine ⟨s, ?_, h⟩
      rw [if_neg (by simp [atWord_iff, hsemicolon])]
      rfl
  | some source =>
      refine ⟨s.advance.advance, ?_, h.advance.advance⟩
      rw [if_pos (atWord_iff.2 h.kind), specifier_written h.advance]
      rfl

/-- A written `export` with names is read up to the semicolon behind it. -/
theorem namesClause_written (names : List (Entry Name)) (source? : Option Source) {n : Nat}
    (hn : names.length < n)
    (h : s.Shows (inline (braced id names ++ source?.elim [] fun source =>
      [fromWord, source.lexeme]) ++ ⟨.semicolon, e⟩ :: ps)) :
    ∃ s', namesClause n s.advance = .ok ((names.map (Entry.value .mk id),
      source?.map Source.specifier), s') ∧ s'.Shows (⟨.semicolon, e⟩ :: ps) := by
  rw [inline_append] at h
  obtain ⟨s₁, hnames, h₁⟩ := exportList_written names hn h
  obtain ⟨s', hsource, h'⟩ := exportSource_written (names.map (Entry.value .mk id)) source? h₁
  refine ⟨s', ?_, h'⟩
  rw [namesClause, hnames]
  exact hsource

/-- A clause is ended by the semicolon behind it. -/
theorem ended_written {α : Type} {f : TokenStream → Except SyntaxFault (α × TokenStream)}
    (build : α → Span → Statement) (start : Span) {a : α}
    (h : ∃ s', f s = .ok (a, s') ∧ s'.Shows (⟨.semicolon, e⟩ :: ps)) :
    ∃ span s', ended f build start s = .ok (build a span, s') ∧ s'.Shows ps := by
  obtain ⟨s', hread, h'⟩ := h
  have hkind : s'.kind = .semicolon := h'.kind
  refine ⟨start.cover s'.current.span, s'.advance, ?_, h'.advance⟩
  rw [ended, hread]
  have hend : s'.endStatement = .ok (s'.current, s'.advance) := by
    rw [endStatement_eq, if_pos hkind]
  show (s'.endStatement >>= fun q => Except.ok (build a (start.cover q.1.span), q.2)) = _
  rw [hend]
  rfl

/-! ## Declarations -/

/-- A written declaration is read as a statement. It takes all tokens, or those in front of the
semicolon that follows the brace of a module. -/
def IsRead (d : Declaration) (s : TokenStream) (ps : List Piece) : Prop :=
  ∃ st s', Reads (.statement st) s s' ∧ st.bare = d.tree ∧
    (s'.Shows ps ∨ s'.Shows (⟨.semicolon, true⟩ :: ps))

/-- A written import without a clause is read. -/
theorem importEffect_read {url : String}
    (h : s.Shows ((Declaration.importEffect url).pieces ++ ps)) :
    IsRead (.importEffect url) s ps := by
  rw [Declaration.pieces, line, List.append_assoc] at h
  obtain ⟨span, s', hread, h'⟩ := ended_written (fun x => .importFrom x.1 x.2) s.current.span
    ⟨_, importClause_url 0 h.advance, h.advance.advance⟩
  rw [← importDeclaration_eq] at hread
  exact ⟨_, s', .importFrom h.atImport hread, rfl, .inl h'⟩

/-- A written import with a clause is read. -/
theorem importFrom_read {clause : Clause} {source : Source}
    (h : s.Shows ((Declaration.importFrom clause source).pieces ++ ps)) :
    IsRead (.importFrom clause source) s ps := by
  rw [Declaration.pieces, line, List.append_assoc] at h
  have hat : s.atImport = true := by
    cases hlexemes : clause.lexemes ++ [fromWord, source.lexeme] with
    | nil => simp at hlexemes
    | cons l ls =>
        rw [List.cons_append, hlexemes] at h
        exact h.atImport
  obtain ⟨span, s', hread, h'⟩ := ended_written (fun x => .importFrom x.1 x.2) s.current.span
    (importClause_written clause source (Nat.lt_succ_self _) h.advance)
  rw [← importDeclaration_eq] at hread
  exact ⟨_, s', .importFrom hat hread, rfl, .inl h'⟩

/-- A written export of names is read. -/
theorem exportNames_read {names : List (Entry Name)} {source? : Option Source}
    (h : s.Shows ((Declaration.exportNames names source?).pieces ++ ps)) :
    IsRead (.exportNames names source?) s ps := by
  rw [Declaration.pieces, line, List.append_assoc] at h
  obtain ⟨span, s', hread, h'⟩ := ended_written (fun x => .exportNames x.1 x.2) s.current.span
    (namesClause_written names source? (Nat.lt_succ_self _) h.advance)
  rw [← exportNamesClause_eq] at hread
  exact ⟨_, s', .exportStatement (atKeyword_iff.2 h.kind) (.exportNames h.advance.kind hread), rfl,
    .inl h'⟩

/-- A written `export *` is read. -/
theorem exportAll_read {name? : Option Name} {source : Source}
    (h : s.Shows ((Declaration.exportAll name? source).pieces ++ ps)) :
    IsRead (.exportAll name? source) s ps := by
  rw [Declaration.pieces, line, List.append_assoc] at h
  obtain ⟨span, s', hread, h'⟩ := ended_written (fun x => .exportAll x.1 x.2) s.current.span
    (allClause_written name? source h.advance.advance)
  rw [← exportAllClause_eq] at hread
  exact ⟨_, s', .exportStatement (atKeyword_iff.2 h.kind) (.exportAll h.advance.kind hread), rfl,
    .inl h'⟩

/-- The statements of a body are read up to its end. -/
def AreRead (ds : List Declaration) : Prop :=
  ∀ {s : TokenStream} {ps : List Piece}, s.Shows (Declaration.lines ds ++ ps) →
    (∀ p ∈ ps.head?, p.lexeme = .rightBrace) →
      ∃ body s', Reads (.statements body) s s' ∧
        Statement.bareAll body = Declaration.trees ds ∧ s'.Shows ps

/-- A module declaration is read as its body is. -/
theorem reads_module {n : LocalName} {body : List Declaration} (hbody : AreRead body)
    (start : Span) (exported : Bool)
    (h : s.Shows (inline [moduleWord, .word n.toWord] ++ ⟨.leftBrace, true⟩ ::
      (Declaration.lines body ++ (line [.rightBrace] ++ ps)))) :
    s.atModule = true ∧ ∃ d s', Reads (.declaration start exported .statement d) s s' ∧
      d.bare = .mk (some n.name) exported .statement (Declaration.trees body) default default ∧
        s'.Shows (⟨.semicolon, true⟩ :: ps) := by
  refine ⟨h.atModule, ?_⟩
  have hname : moduleName s.advance = (some n.name, s.advance.advance) := by
    rw [moduleName, h.advance.identifier]
    rfl
  obtain ⟨statements, s', hread, hbare, h'⟩ :=
    hbody h.advance.advance.advance (by simp [line, inline])
  refine ⟨_, s'.advance, .declaration hname h.advance.advance.kind hread h'.kind, ?_, h'.advance⟩
  rw [ModuleDeclaration.bare, hbare]

/-- A written module is read if its body is. -/
theorem module_read {exported : Bool} {n : LocalName} {body : List Declaration}
    (hbody : AreRead body) (h : s.Shows ((Declaration.module exported n body).pieces ++ ps)) :
    IsRead (.module exported n body) s ps := by
  rw [Declaration.pieces, List.append_assoc, List.append_assoc] at h
  cases exported with
  | false =>
      obtain ⟨hat, d, s', hread, hbare, h'⟩ := reads_module hbody s.current.span false h
      exact ⟨_, s', .module hat hread, congrArg Statement.module hbare, .inr h'⟩
  | true =>
      obtain ⟨hat, d, s', hread, hbare, h'⟩ := reads_module hbody s.current.span true h.advance
      exact ⟨_, s', .exportStatement (atKeyword_iff.2 h.kind) (.exportModule hat hread),
        congrArg Statement.module hbare, .inr h'⟩

/-- A declaration starts with a reserved word or with `module`. -/
theorem kind_ne_of_pieces (d : Declaration) (h : s.Shows (d.pieces ++ ps)) :
    s.kind ≠ .endOfInput ∧ s.kind ≠ .semicolon := by
  have hword : s.kind = importWord.kind ∨ s.kind = exportWord.kind ∨ s.kind = moduleWord.kind := by
    cases d with
    | module exported n body =>
        rw [Declaration.pieces] at h
        cases exported with
        | false => exact .inr (.inr h.kind)
        | true => exact .inr (.inl h.kind)
    | importEffect | importFrom =>
        rw [Declaration.pieces] at h
        exact .inl h.kind
    | exportNames | exportAll =>
        rw [Declaration.pieces] at h
        exact .inr (.inl h.kind)
  rcases hword with hkind | hkind | hkind <;> rw [hkind] <;> decide

/-- Declarations are read as their own statements, one behind the other. -/
theorem areRead_cons {d : Declaration} {ds : List Declaration}
    (hd : ∀ {s : TokenStream} {ps : List Piece}, s.Shows (d.pieces ++ ps) → IsRead d s ps)
    (hds : AreRead ds) : AreRead (d :: ds) := by
  intro s ps h hend
  rw [Declaration.lines, List.append_assoc] at h
  obtain ⟨hkind, hsemicolon⟩ := kind_ne_of_pieces d h
  -- the semicolon behind the brace of a module is left over
  obtain ⟨st, s₁, hread, hbare, h₁ | h₁⟩ := hd h
  · obtain ⟨body, s', hbody, hbares, h'⟩ := hds h₁ hend
    refine ⟨st :: body, s', .cons hkind hsemicolon hread hbody, ?_, h'⟩
    rw [Statement.bareAll, Declaration.trees, hbare, hbares]
  · obtain ⟨body, s', hbody, hbares, h'⟩ := hds h₁.advance hend
    refine ⟨st :: body, s', .cons hkind hsemicolon hread (.semicolon h₁.kind hbody), ?_, h'⟩
    rw [Statement.bareAll, Declaration.trees, hbare, hbares]

/-- A body without declarations is read. -/
theorem areRead_nil : AreRead [] := by
  intro s ps h hend
  refine ⟨[], s, .nil ?_, rfl, h⟩
  cases ps with
  | nil => exact .inl h.kind_nil
  | cons p ps =>
      have hbrace := h.kind
      rw [hend p rfl] at hbrace
      exact .inr hbrace

mutual

/-- Every written declaration is read. -/
theorem isRead (d : Declaration) {s : TokenStream} {ps : List Piece}
    (h : s.Shows (d.pieces ++ ps)) : IsRead d s ps :=
  match d with
  | .importEffect _ => importEffect_read h
  | .importFrom _ _ => importFrom_read h
  | .exportNames _ _ => exportNames_read h
  | .exportAll _ _ => exportAll_read h
  | .module _ _ body => module_read (areRead body) h

/-- All written declarations are read, whatever modules stand in them. -/
theorem areRead (ds : List Declaration) : AreRead ds :=
  match ds with
  | [] => areRead_nil
  | d :: ds => areRead_cons (isRead d) (areRead ds)

end

end Written

/-- The text of declarations is parsed as the statements that they stand for. -/
theorem SyntaxTree.parse_written (ds : List Written.Declaration) :
    ∃ body, parse (Written.text ds) = .ok ⟨Written.text ds, body⟩ ∧
      body.map Statement.bare = ds.map Written.Declaration.tree := by
  have hshows : (ofTokens (Token.ofChars (Written.text ds))).Shows
      (Written.Declaration.lines ds ++ []) := by
    rw [List.append_nil]
    refine ⟨⟨0, false, ?_⟩, ?_⟩
    · rw [toList_ofTokens (ofChars_ne_nil _)]
      exact Piece.ofChars_text (Written.Declaration.lines ds)
    · cases Token.ofChars (Written.text ds) <;> rfl
  obtain ⟨body, s', hread, hbare, h'⟩ := areRead ds hshows (by simp)
  refine ⟨body, parse_eq_ok.2 ⟨rfl, s', h'.kind_nil, hread⟩, ?_⟩
  rw [← Statement.bareAll_eq, hbare, Written.Declaration.trees_eq]

end ModuleGraph
