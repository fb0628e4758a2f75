import ModuleGraph.Proofs.Embeddings

/-!
# Statements in front of a closing brace

The statements of a text are read in front of a closing brace too, with their spans moved
(`Reads.embedded`). The brace ends code where the end of the text does; only code that has no token
at all would be missed.
-/

namespace ModuleGraph

open TokenStream
open ModuleGraph.Parser

/-- A default export without code. -/
def Statement.LacksCode : Statement → Prop
  | .exportDefault _ c _ => c.span.start = c.span.stop
  | _ => False

/-- A phrase does not need the end of the text in the place of code. Code that is under way has a
token before it. -/
def Phrase.HasCode (s s' : TokenStream) : Phrase → Prop
  | .statements body => s'.kind = .endOfInput → ∀ st ∈ body, ¬st.LacksCode
  | .statement st => s.kind ≠ .endOfInput ∧ (s'.kind = .endOfInput → ¬st.LacksCode)
  | .exported _ st => s'.kind = .endOfInput → ¬st.LacksCode
  | .declaration .. => True
  | .code _ isFirst .. => if isFirst then s.kind ≠ .endOfInput else s.previous.isSome

/-- At the end of the text there are no statements. -/
theorem Reads.eq_of_end {body : List Statement} {s s' : TokenStream}
    (h : Reads (.statements body) s s') (hend : s.kind = .endOfInput) : s' = s := by
  cases h with
  | nil => rfl
  | semicolon hkind _ => simp [hend] at hkind
  | cons hend' _ _ _ => exact absurd hend hend'

/-- At the end of the text there is no code. -/
theorem Reads.code_of_end {codeEnd : CodeEnd} {isFirst : Bool} {last final : Span}
    {modules : List ModuleDeclaration} {s s' : TokenStream}
    (h : Reads (.code codeEnd isFirst 0 last final modules) s s') (hend : s.kind = .endOfInput) :
    final = last ∧ s' = s := by
  cases h with
  | codeAtEnd => exact ⟨rfl, rfl⟩
  | codeAtSemicolon hkind => simp [hend] at hkind
  | codeAtClose hkind => simp [hend, Token.Kind.isCloseBracket] at hkind
  | codeAtStatement hat =>
      obtain hkind | hkind | hkind := kind_of_startsHere hat <;> simp [hend] at hkind
  | codeModule hat => simp [kind_of_onModule hat] at hend
  | codeToken hgoes => exact absurd hend hgoes.unfinished

/-- A declaration ends with a token. -/
theorem Reads.isSome_previous {start : Span} {exported : Bool} {placement : Placement}
    {d : ModuleDeclaration} {s s' : TokenStream}
    (h : Reads (.declaration start exported placement d) s s') (hs : s.Closed) :
    s'.previous.isSome := by
  cases h with
  | declaration hname hopen hbody hclose =>
      have hclosed := (hs.of_follows (follows_advance _)).of_follows
        (hbody.follows.of_advance.trans (follows_moduleName hname))
      rw [previous_advance (hclosed.ahead_ne_nil (by simp [hclose]))]
      rfl

section Forms

variable {e : Embedding} {s s₀ s₀' : TokenStream}

/-- Lines matter only for code that is under way. -/
theorem onStatement_embedded (hpairs : e.Pairs s s₀) {isFirst : Bool}
    (hsome : isFirst = false → s₀.previous.isSome) (depth : Nat) :
    onStatement isFirst depth s = onStatement isFirst depth s₀ := by
  cases isFirst with
  | true => simp [onStatement]
  | false =>
      rw [onStatement, onStatement,
        e.alike.startsHere_eq hpairs (hpairs.newlineBefore_eq (hsome rfl))]

/-- Code is at a module in front of the brace just where it is in the text. -/
theorem onModule_embedded (hpairs : e.Pairs s s₀) {isFirst : Bool}
    (hsome : isFirst = false → s₀.previous.isSome) (depth : Nat) :
    onModule isFirst depth s = onModule isFirst depth s₀ := by
  rw [onModule, onModule, onStatement_embedded hpairs hsome, e.alike.atModule_eq hpairs,
    e.alike.atAnonymousModule_eq hpairs]

/-- Code that goes on in the text goes on in front of the brace. -/
theorem Parser.GoesOn.embedded {codeEnd : CodeEnd} {isFirst : Bool} {depth : Nat}
    (hgoes : GoesOn codeEnd isFirst depth s₀) (hpairs : e.Pairs s s₀)
    (hsome : isFirst = false → s₀.previous.isSome) : GoesOn codeEnd isFirst depth s := by
  have hkind := hpairs.kind_eq hgoes.unfinished
  constructor
  case unfinished => exact hkind ▸ hgoes.unfinished
  case valid => exact hkind ▸ hgoes.valid
  case semicolon => exact hkind ▸ hgoes.semicolon
  case close => exact hkind ▸ hgoes.close
  case module => exact (onModule_embedded hpairs hsome depth).trans hgoes.module
  case statement => exact (onStatement_embedded hpairs hsome depth).trans hgoes.statement
  case declaration => exact hkind ▸ hgoes.declaration

/-- The name of a module is read in front of the brace as in the text. -/
theorem moduleName_embedded (hpairs : e.Pairs s s₀) {name : Option String}
    (hname : moduleName s₀ = (name, s₀')) :
    ∃ s', e.Pairs s' s₀' ∧ moduleName s = (name, s') := by
  have hread₀ : identifier? s₀.kind = identifier? s.kind := e.alike.read?_eq hpairs rfl rfl
  unfold moduleName at hname ⊢
  rw [hread₀] at hname
  cases hread : identifier? s.kind with
  | none =>
      rw [hread] at hname
      cases hname
      exact ⟨s, hpairs, rfl⟩
  | some text =>
      rw [hread] at hname
      cases hname
      have hkind : s.kind ≠ .rightBrace := kind_ne_of_read? hread rfl
      exact ⟨s.advance, e.alike.advance hpairs hkind, rfl⟩

/-- A phrase of the text from `s₀` to `s₀'` is read, with its spans moved, from `s` on. -/
def ReadEmbedded (e : Embedding) (phrase : Phrase) (s s₀' : TokenStream) : Prop :=
  ∃ s', e.Pairs s' s₀' ∧ Reads (phrase.shift e.offset) s s'

variable {start final : Span} {modules : List ModuleDeclaration}

/-- A default export is read in front of the brace if its code is. -/
theorem exportDefault_embedded (hpairs : e.Pairs s s₀) (hkind : s₀.kind = .keyword .«default»)
    (hend : s₀.advance.kind ≠ .endOfInput)
    (hread : ReadEmbedded e (.code (defaultEnd s₀.advance) true 0 s₀.advance.current.span final
      modules) s.advance s₀') :
    ReadEmbedded e (.exported start (.exportDefault (s₀.advance.declaredName?.getD defaultLocal)
      (.mk (s₀.advance.current.span.cover final) modules)
      (start.cover (s₀.advance.current.span.cover final)))) s s₀' := by
  have hend₀ : s₀.kind ≠ .endOfInput := by simp [hkind]
  have hsecond := hpairs.advance hend₀
  have hdefault : defaultEnd s₀.advance = defaultEnd s.advance := by
    rw [defaultEnd, defaultEnd, e.alike.atFunctionOrClass_eq hsecond]
  obtain ⟨s', hpairs', hread⟩ := hread
  rw [Phrase.shift, ← hsecond.span_eq hend, hdefault] at hread
  have hexport := @Reads.exportDefault (start.shift e.offset) _ _ _ _
    ((hpairs.kind_eq hend₀).trans hkind) hread
  refine ⟨s', hpairs', ?_⟩
  rw [hsecond.span_eq hend, ← e.alike.declaredName?_eq hsecond] at hexport
  simpa only [Phrase.shift, Statement.shift, Code.shift, Span.shift_cover] using hexport

/-- An exported declaration is read in front of the brace if its code is. -/
theorem exportDeclaration_embedded {codeEnd : CodeEnd} (hpairs : e.Pairs s s₀)
    (hmodule : s₀.atModule = false) (hcodeEnd : declarationEnd? s₀.kind = some codeEnd)
    (hnames : declaredNames s₀ s₀' ≠ []) (hend : s₀.kind ≠ .endOfInput)
    (hread : ReadEmbedded e (.code codeEnd true 0 s₀.current.span final modules) s s₀') :
    ReadEmbedded e (.exported start (.exportDeclaration (declaredNames s₀ s₀')
      (.mk (s₀.current.span.cover final) modules)
      (start.cover (s₀.current.span.cover final)))) s s₀' := by
  obtain ⟨s', hpairs', hread⟩ := hread
  have hdeclared : declaredNames s₀ s₀' = declaredNames s s' := by
    rw [declaredNames, declaredNames, e.alike.declaredName?_eq hpairs, hpairs.kinds_eq hpairs']
  rw [Phrase.shift, ← hpairs.span_eq hend] at hread
  have hexport := @Reads.exportDeclaration (start.shift e.offset) _ _ _ _ _
    ((e.alike.atModule_eq hpairs).symm.trans hmodule)
    ((congrArg _ (hpairs.kind_eq hend)).trans hcodeEnd) hread (hdeclared ▸ hnames)
  refine ⟨s', hpairs', ?_⟩
  rw [hpairs.span_eq hend, ← hdeclared] at hexport
  simpa only [Phrase.shift, Statement.shift, Code.shift, Span.shift_cover] using hexport

/-- The braces of a declaration stand among the tokens of the text. -/
theorem declaration_embedded {exported : Bool} {placement : Placement} {name : Option String}
    {body : List Statement} {s₁ : TokenStream} (hpairs : e.Pairs s s₀)
    (hname : moduleName s₀.advance = (name, s₁)) (hopen : s₁.kind = .leftBrace)
    (hclose : s₀'.kind = .rightBrace)
    (hread : ∀ {s₂ : TokenStream}, e.Pairs s₂ s₁.advance →
      ReadEmbedded e (.statements body) s₂ s₀') :
    ReadEmbedded e (.declaration start exported placement (.mk name exported placement body
      (start.cover s₀'.current.span) ⟨s₁.current.span.stop, s₀'.current.span.start⟩)) s
      s₀'.advance := by
  have hend : s₀.kind ≠ .endOfInput := by
    intro hend
    rw [(hpairs.empty hend).2, moduleName, hend] at hname
    cases hname
    simp [hend] at hopen
  obtain ⟨s₂, hpairs₂, hname₂⟩ := moduleName_embedded (hpairs.advance hend) hname
  have hopen₁ : s₁.kind ≠ .endOfInput := by simp [hopen]
  have hclose₁ : s₀'.kind ≠ .endOfInput := by simp [hclose]
  obtain ⟨s', hpairs', hbody⟩ := hread (hpairs₂.advance hopen₁)
  have hdeclaration := @Reads.declaration (start.shift e.offset) exported placement _ _ _ _ _
    hname₂ ((hpairs₂.kind_eq hopen₁).trans hopen) hbody ((hpairs'.kind_eq hclose₁).trans hclose)
  refine ⟨s'.advance, hpairs'.advance hclose₁, ?_⟩
  rw [hpairs₂.span_eq hopen₁, hpairs'.span_eq hclose₁] at hdeclaration
  simp only [Phrase.shift, ModuleDeclaration.shift, Span.shift_cover]
  exact hdeclaration

end Forms

/-- What is read of the text is read in front of the closing brace, with its spans moved. The
induction is on what is read; only code that the end of the text stands for would be missed. -/
theorem Reads.embedded {e : Embedding} {phrase : Phrase} {s s₀ s₀' : TokenStream}
    (h : Reads phrase s₀ s₀') (hpairs : e.Pairs s s₀) (hcode : phrase.HasCode s₀ s₀') :
    ReadEmbedded e phrase s s₀' := by
  induction h generalizing s with
  | @nil s₀ hkind =>
      have hbrace : s.kind = .rightBrace := by
        obtain hkind | hkind := hkind
        · exact hpairs.kind_of_end hkind
        · exact (hpairs.kind_eq (by simp [hkind])).trans hkind
      exact ⟨s, hpairs, .nil (.inr hbrace)⟩
  | @semicolon s₀ _ _ hkind _ ih =>
      have hend : s₀.kind ≠ .endOfInput := by simp [hkind]
      obtain ⟨s', hpairs', hread⟩ := ih (hpairs.advance hend) hcode
      exact ⟨s', hpairs', .semicolon ((hpairs.kind_eq hend).trans hkind) hread⟩
  | @cons s₀ s₁ s₀' st body hend hsemicolon hstatement hbody ihStatement ihBody =>
      -- what is read at the end of the text leaves no statements behind it
      have hlast : s₁.kind = .endOfInput → ¬st.LacksCode := fun hend₁ =>
        hcode ((hbody.eq_of_end hend₁).symm ▸ hend₁) st (List.mem_cons_self ..)
      obtain ⟨s₂, hpairs₂, hread⟩ := ihStatement hpairs ⟨hend, hlast⟩
      obtain ⟨s', hpairs', hread'⟩ := ihBody hpairs₂ fun hend' st hst =>
        hcode hend' st (List.mem_cons_of_mem _ hst)
      have hkind := hpairs.kind_eq hend
      exact ⟨s', hpairs', .cons (by simp [hkind, hend]) (hkind ▸ hsemicolon) hread hread'⟩
  | importFrom hat hread =>
      obtain ⟨s', hpairs', hread'⟩ := importDeclaration_embedded hpairs hat hread
      exact ⟨s', hpairs', .importFrom ((e.alike.atImport_eq hpairs).symm.trans hat) hread'⟩
  | @exportStatement s₀ _ _ hat hread ih =>
      have hend : s₀.kind ≠ .endOfInput := by simp [atKeyword_iff.1 hat]
      obtain ⟨s', hpairs', hread'⟩ := ih (hpairs.advance hend) hcode.2
      rw [Phrase.shift, ← hpairs.span_eq hend] at hread'
      exact ⟨s', hpairs',
        .exportStatement ((e.alike.atKeyword_eq hpairs _).symm.trans hat) hread'⟩
  | module hat hread ih =>
      obtain ⟨s', hpairs', hread'⟩ := ih hpairs trivial
      rw [Phrase.shift, ← hpairs.span_eq hcode.1] at hread'
      exact ⟨s', hpairs', .module ((e.alike.atModule_eq hpairs).symm.trans hat) hread'⟩
  | @code s₀ _ final modules himport hexport hmodule _ ih =>
      obtain ⟨s', hpairs', hread'⟩ := ih hpairs hcode.1
      rw [Phrase.shift, ← hpairs.span_eq hcode.1] at hread'
      have hstatement := Reads.code ((e.alike.atImport_eq hpairs).symm.trans himport)
        ((e.alike.atKeyword_eq hpairs _).symm.trans hexport)
        ((e.alike.atModule_eq hpairs).symm.trans hmodule) hread'
      refine ⟨s', hpairs', ?_⟩
      rw [hpairs.span_eq hcode.1, ← Span.shift_cover] at hstatement
      exact hstatement
  | exportModule hat hread ih =>
      obtain ⟨s', hpairs', hread'⟩ := ih hpairs trivial
      exact ⟨s', hpairs', .exportModule ((e.alike.atModule_eq hpairs).symm.trans hat) hread'⟩
  | @exportAll _ s₀ _ _ hkind hread =>
      have hend : s₀.kind ≠ .endOfInput := by simp [hkind]
      obtain ⟨s', hpairs', hread'⟩ := exportAllClause_embedded (hpairs.advance hend)
        (hpairs.isSome_previous hend) hread
      exact ⟨s', hpairs', .exportAll ((hpairs.kind_eq hend).trans hkind) hread'⟩
  | @exportNames _ s₀ _ _ _ hkind hread =>
      have hend : s₀.kind ≠ .endOfInput := by simp [hkind]
      obtain ⟨s', hpairs', hread'⟩ := exportNamesClause_embedded (hpairs.advance hend)
        (hpairs.isSome_previous hend) hread
      exact ⟨s', hpairs', .exportNames ((hpairs.kind_eq hend).trans hkind) hread'⟩
  | @exportDefault start s₀ s₀' final modules hkind hread ih =>
      have hend₀ : s₀.kind ≠ .endOfInput := by simp [hkind]
      have hsecond := hpairs.advance hend₀
      have hend : s₀.advance.kind ≠ .endOfInput := by
        -- at the end of the text the default export would have no code
        intro hend
        obtain ⟨rfl, rfl⟩ := hread.code_of_end hend
        have hempty := (hsecond.empty hend).1
        exact hcode hend (by simp [Statement.LacksCode, Code.span, hempty])
      exact exportDefault_embedded hpairs hkind hend (ih hsecond hend)
  | @exportDeclaration start s₀ _ _ _ _ hmodule hcodeEnd _ hnames ih =>
      have hend : s₀.kind ≠ .endOfInput := by
        intro hend
        rw [hend] at hcodeEnd
        cases hcodeEnd
      exact exportDeclaration_embedded hpairs hmodule hcodeEnd hnames hend (ih hpairs hend)
  | declaration hname hopen _ hclose ih =>
      refine declaration_embedded hpairs hname hopen hclose fun hpairs₂ => ih hpairs₂ fun hend => ?_
      simp [hclose] at hend
  | @codeAtEnd _ isFirst _ s₀ hkind =>
      cases isFirst with
      | true => exact absurd hkind hcode
      | false =>
          -- code that is under way ends at the brace as it does at the end of the text
          have hbrace := hpairs.kind_of_end hkind
          exact ⟨s, hpairs, .codeAtClose (by rw [hbrace]; rfl)⟩
  | @codeAtSemicolon _ _ _ s₀ hkind =>
      have hend : s₀.kind ≠ .endOfInput := by simp [hkind]
      refine ⟨s.advance, hpairs.advance hend, ?_⟩
      rw [Phrase.shift, ← hpairs.span_eq hend]
      exact .codeAtSemicolon ((hpairs.kind_eq hend).trans hkind)
  | @codeAtClose _ _ s₀ hkind =>
      have hend : s₀.kind ≠ .endOfInput := by
        intro hend
        rw [hend] at hkind
        cases hkind
      exact ⟨s, hpairs, .codeAtClose (hpairs.kind_eq hend ▸ hkind)⟩
  | codeAtStatement hat =>
      exact ⟨s, hpairs, .codeAtStatement
        ((e.alike.startsHere_eq hpairs (hpairs.newlineBefore_eq hcode)).symm.trans hat)⟩
  | @codeAtDeclaration _ _ s₀ hkind =>
      have hend : s₀.kind ≠ .endOfInput := by simp [hkind]
      refine ⟨s.advance, hpairs.advance hend, ?_⟩
      rw [Phrase.shift, ← hpairs.span_eq hend]
      exact .codeAtDeclaration ((hpairs.kind_eq hend).trans hkind)
  | @codeModule _ isFirst _ _ _ s₀ s₁ _ _ _ hat hmodule _ ihModule ihCode =>
      have hend : s₀.kind ≠ .endOfInput := by simp [kind_of_onModule hat]
      have hsome : isFirst = false → s₀.previous.isSome := by
        rintro rfl
        exact hcode
      obtain ⟨s₂, hpairs₂, hread₂⟩ := ihModule hpairs trivial
      rw [Phrase.shift, ← hpairs.span_eq hend] at hread₂
      obtain ⟨s', hpairs', hread'⟩ := ihCode hpairs₂ (hmodule.isSome_previous hpairs.closed)
      rw [Phrase.shift, ← ModuleDeclaration.span_shift] at hread'
      exact ⟨s', hpairs',
        .codeModule ((onModule_embedded hpairs hsome _).trans hat) hread₂ hread'⟩
  | @codeToken _ isFirst _ _ _ s₀ _ _ hgoes _ ih =>
      have hend := hgoes.unfinished
      have hsome : isFirst = false → s₀.previous.isSome := by
        rintro rfl
        exact hcode
      obtain ⟨s', hpairs', hread'⟩ := ih (hpairs.advance hend) (hpairs.isSome_previous hend)
      rw [Phrase.shift, ← hpairs.span_eq hend, ← hpairs.kind_eq hend] at hread'
      exact ⟨s', hpairs', .codeToken (hgoes.embedded hpairs hsome) hread'⟩

end ModuleGraph
