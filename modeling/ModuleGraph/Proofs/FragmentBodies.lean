import ModuleGraph.Proofs.Grammar

/-!
# The body of a module declaration

A module declaration is parsed as if the text between its braces were a source of its own
(`SyntaxTree.parse_body`).
-/

namespace ModuleGraph

open TokenStream ModuleGraph.Parser

/-! ## Moving statements -/

mutual

/-- A statement with all its spans moved `n` bytes to the right. -/
def Statement.shift (n : Nat) : Statement → Statement
  | .importFrom source bindings span => .importFrom source bindings (span.shift n)
  | .exportNames names source span => .exportNames names source (span.shift n)
  | .exportAll source name? span => .exportAll source name? (span.shift n)
  | .exportDeclaration names code span =>
    .exportDeclaration names (code.shift n) (span.shift n)
  | .exportDefault localName code span =>
    .exportDefault localName (code.shift n) (span.shift n)
  | .module d => .module (d.shift n)
  | .code c => .code (c.shift n)

/-- Code with all its spans moved `n` bytes to the right. -/
def Code.shift (n : Nat) : Code → Code
  | .mk span modules => .mk (span.shift n) (ModuleDeclaration.shiftAll n modules)

/-- A module declaration with all its spans moved `n` bytes to the right. -/
def ModuleDeclaration.shift (n : Nat) : ModuleDeclaration → ModuleDeclaration
  | .mk name exported placement body span bodySpan =>
    .mk name exported placement (Statement.shiftAll n body) (span.shift n) (bodySpan.shift n)

/-- Statements with all their spans moved `n` bytes to the right. -/
def Statement.shiftAll (n : Nat) : List Statement → List Statement
  | [] => []
  | s :: ss => s.shift n :: Statement.shiftAll n ss

/-- Module declarations with all their spans moved `n` bytes to the right. -/
def ModuleDeclaration.shiftAll (n : Nat) : List ModuleDeclaration → List ModuleDeclaration
  | [] => []
  | d :: ds => d.shift n :: ModuleDeclaration.shiftAll n ds

end

/-- A phrase with all its spans moved `n` bytes to the right. -/
def Phrase.shift (n : Nat) : Phrase → Phrase
  | .statements body => .statements (Statement.shiftAll n body)
  | .statement st => .statement (st.shift n)
  | .exported start st => .exported (start.shift n) (st.shift n)
  | .declaration start isExported placement d =>
    .declaration (start.shift n) isExported placement (d.shift n)
  | .code codeEnd isFirst depth last final modules =>
    .code codeEnd isFirst depth (last.shift n) (final.shift n)
      (ModuleDeclaration.shiftAll n modules)

@[simp] theorem ModuleDeclaration.span_shift (n : Nat) (d : ModuleDeclaration) :
    (d.shift n).span = d.span.shift n := by
  cases d
  rfl

@[simp] theorem ModuleDeclaration.bodySpan_shift (n : Nat) (d : ModuleDeclaration) :
    (d.shift n).bodySpan = d.bodySpan.shift n := by
  cases d
  rfl

namespace Span

/-- The span of two moved spans is the span of both, moved. -/
theorem shift_cover (n : Nat) (a b : Span) :
    (a.cover b).shift n = (a.shift n).cover (b.shift n) := by
  simp [cover, shift, Nat.add_min_add_right, Nat.add_max_add_right]

/-- Spans that are moved alike to the same place are the same. -/
theorem shift_inj {n : Nat} {a b : Span} (h : a.shift n = b.shift n) : a = b := by
  cases a
  cases b
  simpa [shift] using h

end Span

/-- The span that the phrase is read with is one among the tokens from `n` on. -/
def Phrase.BeginsFrom (n : Nat) : Phrase → Prop
  | .exported start _ | .declaration start .. | .code _ _ _ start .. =>
    ∃ start₀ : Span, start = start₀.shift n
  | _ => True

/-! ## Reading between braces and alone -/

section Clauses

variable {e : Enclosure} {s s₀ s' : TokenStream} {statement : Statement}

/-- A statement in clauses is read alone, with its end, as between the braces. -/
theorem ended_alone {α : Type} {f : TokenStream → Except SyntaxFault (α × TokenStream)}
    (hf : Reader f) {build : α → Span → Statement}
    (hbuild : ∀ a span, (build a span).shift e.offset = build a (span.shift e.offset))
    (hpairs : e.Pairs s s₀) (hsome : s₀.previous.isSome) {start : Span}
    (h : ended f build (start.shift e.offset) s = .ok (statement, s'))
    (hlength : e.after.length ≤ s'.ahead.length) :
    ∃ statement₀ s₀', e.Pairs s' s₀' ∧ statement = statement₀.shift e.offset ∧
      ended f build start s₀ = .ok (statement₀, s₀') := by
  obtain ⟨⟨a, s₁⟩, hread, h⟩ := Except.bind_eq_ok h
  obtain ⟨⟨last, s₂⟩, hend, h⟩ := Except.bind_eq_ok h
  cases h
  obtain ⟨s₁₀, hpairs₁, hsome₁, hread₀⟩ := hf.alone hpairs hsome hread
    (Nat.le_trans hlength (follows_endStatement hend).length_le)
  obtain ⟨s₂₀, last₀, hpairs₂, rfl, hend₀⟩ := endStatement_alone hpairs₁ hsome₁ hend hlength
  refine ⟨build a (start.cover last₀.span), s₂₀, hpairs₂, ?_, ?_⟩
  · rw [hbuild, Span.shift_cover]
    rfl
  · rw [ended, hread₀]
    show s₁₀.endStatement >>= _ = _
    rw [hend₀]
    rfl

/-- An import declaration is read alone as between the braces. -/
theorem importDeclaration_alone {n : Nat} (hpairs : e.Pairs s s₀) (hat : s.atImport = true)
    (h : importDeclaration n s = .ok (statement, s'))
    (hlength : e.after.length ≤ s'.ahead.length) :
    ∃ statement₀ s₀', e.Pairs s' s₀' ∧ statement = statement₀.shift e.offset ∧
      importDeclaration n s₀ = .ok (statement₀, s₀') := by
  have hkind : s.kind ≠ .rightBrace := by simp [kind_of_atImport hat]
  rw [importDeclaration_eq, hpairs.current_eq hkind] at h
  rw [importDeclaration_eq]
  exact ended_alone (reader_importClause n) (fun _ _ => rfl) (hpairs.advance_of_kind hkind)
    (hpairs.isSome_previous hkind) h hlength

/-- An `export *` is read alone as between the braces. -/
theorem exportAllClause_alone {start : Span} (hpairs : e.Pairs s s₀)
    (hsome : s₀.previous.isSome)
    (h : exportAllClause (start.shift e.offset) s = .ok (statement, s'))
    (hlength : e.after.length ≤ s'.ahead.length) :
    ∃ statement₀ s₀', e.Pairs s' s₀' ∧ statement = statement₀.shift e.offset ∧
      exportAllClause start s₀ = .ok (statement₀, s₀') := by
  rw [exportAllClause_eq] at h ⊢
  exact ended_alone reader_allClause (fun _ _ => rfl) hpairs hsome h hlength

/-- An export of names is read alone as between the braces. -/
theorem exportNamesClause_alone {n : Nat} {start : Span} (hpairs : e.Pairs s s₀)
    (hsome : s₀.previous.isSome)
    (h : exportNamesClause n (start.shift e.offset) s = .ok (statement, s'))
    (hlength : e.after.length ≤ s'.ahead.length) :
    ∃ statement₀ s₀', e.Pairs s' s₀' ∧ statement = statement₀.shift e.offset ∧
      exportNamesClause n start s₀ = .ok (statement₀, s₀') := by
  rw [exportNamesClause_eq] at h ⊢
  exact ended_alone (reader_namesClause n) (fun _ _ => rfl) hpairs hsome h hlength

/-- Whether a statement ends a run of code is the same at paired places. -/
theorem onStatement_eq (h : e.Pairs s s₀) (isFirst : Bool) (depth : Nat) :
    onStatement isFirst depth s₀ = onStatement isFirst depth s := by
  rw [onStatement, onStatement, h.startsHere_eq]

/-- Whether a module in code starts is the same at paired places. -/
theorem onModule_eq (h : e.Pairs s s₀) (isFirst : Bool) (depth : Nat) :
    onModule isFirst depth s₀ = onModule isFirst depth s := by
  rw [onModule, onModule, onStatement_eq h, h.atModule_eq, h.atAnonymousModule_eq]

/-- Code that goes on between the braces goes on alone. -/
theorem Parser.GoesOn.alone {codeEnd : CodeEnd} {isFirst : Bool} {depth : Nat}
    (hgoes : GoesOn codeEnd isFirst depth s) (h : e.Pairs s s₀)
    (hlength : e.after.length ≤ s.advance.ahead.length) : GoesOn codeEnd isFirst depth s₀ := by
  have hkind := h.kind_eq hlength
  constructor
  case unfinished => exact hkind ▸ hgoes.unfinished
  case valid => exact hkind ▸ hgoes.valid
  case semicolon => exact hkind ▸ hgoes.semicolon
  case close => exact hkind ▸ hgoes.close
  case module => exact (onModule_eq h isFirst depth).trans hgoes.module
  case statement => exact (onStatement_eq h isFirst depth).trans hgoes.statement
  case declaration => exact hkind ▸ hgoes.declaration

/-- The names of a declaration are the same between paired places. -/
theorem declaredNames_eq {s₀' : TokenStream} (h : e.Pairs s s₀) (h' : e.Pairs s' s₀') :
    declaredNames s₀ s₀' = declaredNames s s' := by
  rw [declaredNames, declaredNames, h.declaredName?_eq, h.kinds_eq h']

/-- The code of a default export ends the same way at paired places. -/
theorem defaultEnd_eq (h : e.Pairs s s₀) : defaultEnd s₀ = defaultEnd s := by
  rw [defaultEnd, defaultEnd, h.atFunctionOrClass_eq]

/-- The name of a module is read alone as between the braces. -/
theorem moduleName_alone (h : e.Pairs s s₀) {name : Option String}
    (hname : moduleName s = (name, s')) :
    ∃ s₀', e.Pairs s' s₀' ∧ moduleName s₀ = (name, s₀') := by
  unfold moduleName at hname ⊢
  rw [h.identifier?_eq]
  cases hread : identifier? s.kind with
  | none =>
      rw [hread] at hname
      cases hname
      exact ⟨s₀, h, rfl⟩
  | some text =>
      rw [hread] at hname
      cases hname
      have hkind : s.kind ≠ .rightBrace := kind_ne_of_read? hread rfl
      exact ⟨s₀.advance, h.advance_of_kind hkind, rfl⟩

end Clauses

/-- A phrase between the braces that ends at `s'` is read alone from `s₀` on, with its spans
moved. -/
def ReadAlone (e : Enclosure) (phrase : Phrase) (s' s₀ : TokenStream) : Prop :=
  ∃ phrase₀ s₀', e.Pairs s' s₀' ∧ phrase = phrase₀.shift e.offset ∧ Reads phrase₀ s₀ s₀'

namespace ReadAlone

variable {e : Enclosure} {s' s₀ : TokenStream} {start : Span} {st : Statement}

/-- Statements that are read alone are those between the braces, moved. -/
theorem statements {body : List Statement} (h : ReadAlone e (.statements body) s' s₀) :
    ∃ body₀ s₀', e.Pairs s' s₀' ∧ body = Statement.shiftAll e.offset body₀ ∧
      Reads (.statements body₀) s₀ s₀' := by
  obtain ⟨phrase, s₀', hpairs, hphrase, hread⟩ := h
  cases phrase with
  | statements body₀ =>
      cases hphrase
      exact ⟨body₀, s₀', hpairs, rfl, hread⟩
  | _ => cases hphrase

/-- A statement that is read alone is the one between the braces, moved. -/
theorem statement (h : ReadAlone e (.statement st) s' s₀) :
    ∃ st₀ s₀', e.Pairs s' s₀' ∧ st = st₀.shift e.offset ∧ Reads (.statement st₀) s₀ s₀' := by
  obtain ⟨phrase, s₀', hpairs, hphrase, hread⟩ := h
  cases phrase with
  | statement st₀ =>
      cases hphrase
      exact ⟨st₀, s₀', hpairs, rfl, hread⟩
  | _ => cases hphrase

/-- An export that is read alone is the one between the braces, moved. -/
theorem exported (h : ReadAlone e (.exported (start.shift e.offset) st) s' s₀) :
    ∃ st₀ s₀', e.Pairs s' s₀' ∧ st = st₀.shift e.offset ∧ Reads (.exported start st₀) s₀ s₀' := by
  obtain ⟨phrase, s₀', hpairs, hphrase, hread⟩ := h
  cases phrase with
  | exported start₀ st₀ =>
      rw [Phrase.shift, Phrase.exported.injEq] at hphrase
      obtain ⟨hstart, rfl⟩ := hphrase
      exact ⟨st₀, s₀', hpairs, rfl, Span.shift_inj hstart ▸ hread⟩
  | _ => cases hphrase

/-- A module declaration that is read alone is the one between the braces, moved. -/
theorem declaration {isExported : Bool} {placement : Placement} {d : ModuleDeclaration}
    (h : ReadAlone e (.declaration (start.shift e.offset) isExported placement d) s' s₀) :
    ∃ d₀ s₀', e.Pairs s' s₀' ∧ d = d₀.shift e.offset ∧
      Reads (.declaration start isExported placement d₀) s₀ s₀' := by
  obtain ⟨phrase, s₀', hpairs, hphrase, hread⟩ := h
  cases phrase with
  | declaration start₀ isExported₀ placement₀ d₀ =>
      rw [Phrase.shift, Phrase.declaration.injEq] at hphrase
      obtain ⟨hstart, rfl, rfl, rfl⟩ := hphrase
      exact ⟨d₀, s₀', hpairs, rfl, Span.shift_inj hstart ▸ hread⟩
  | _ => cases hphrase

/-- Code that is read alone is that between the braces, moved. -/
theorem code {codeEnd : CodeEnd} {isFirst : Bool} {depth : Nat} {last final : Span}
    {modules : List ModuleDeclaration}
    (h : ReadAlone e (.code codeEnd isFirst depth (last.shift e.offset) final modules) s' s₀) :
    ∃ final₀ modules₀ s₀', e.Pairs s' s₀' ∧ final = final₀.shift e.offset ∧
      modules = ModuleDeclaration.shiftAll e.offset modules₀ ∧
      Reads (.code codeEnd isFirst depth last final₀ modules₀) s₀ s₀' := by
  obtain ⟨phrase, s₀', hpairs, hphrase, hread⟩ := h
  cases phrase with
  | code codeEnd₀ isFirst₀ depth₀ last₀ final₀ modules₀ =>
      rw [Phrase.shift, Phrase.code.injEq] at hphrase
      obtain ⟨rfl, rfl, rfl, hlast, rfl, rfl⟩ := hphrase
      exact ⟨final₀, modules₀, s₀', hpairs, rfl, rfl, Span.shift_inj hlast ▸ hread⟩
  | _ => cases hphrase

end ReadAlone

section Forms

variable {e : Enclosure} {s s₀ s₁ s' : TokenStream} {final : Span}
  {modules : List ModuleDeclaration}

/-- A statement of code is read alone if its code is. -/
theorem code_alone (hpairs : e.Pairs s s₀) (himport : s.atImport = false)
    (hexport : s.atKeyword .«export» = false) (hmodule : s.atModule = false)
    (hkind : s.kind ≠ .rightBrace)
    (hcode : ReadAlone e (.code .statement true 0 s.current.span final modules) s' s₀) :
    ReadAlone e (.statement (.code (.mk (s.current.span.cover final) modules))) s' s₀ := by
  rw [hpairs.current_eq hkind] at hcode ⊢
  obtain ⟨final₀, modules₀, s₀', hpairs', rfl, rfl, hread⟩ := hcode.code
  refine ⟨_, s₀', hpairs', ?_, .code (hpairs.atImport_eq.trans himport)
    ((hpairs.atKeyword_eq _).trans hexport) (hpairs.atModule_eq.trans hmodule) hread⟩
  simp only [Phrase.shift, Statement.shift, Code.shift, Span.shift_cover, Token.shift_span]

/-- A default export is read alone if its code is. -/
theorem exportDefault_alone (start : Span) (hpairs : e.Pairs s s₀)
    (hkind : s.kind = .keyword .«default») (hkind' : s.advance.kind ≠ .rightBrace)
    (hcode : ReadAlone e (.code (defaultEnd s.advance) true 0 s.advance.current.span final modules)
      s' s₀.advance) :
    ReadAlone e (.exported (start.shift e.offset) (.exportDefault
      (s.advance.declaredName?.getD defaultLocal) (.mk (s.advance.current.span.cover final) modules)
      ((start.shift e.offset).cover (s.advance.current.span.cover final)))) s' s₀ := by
  have hsecond := hpairs.advance_of_kind (by simp [hkind])
  rw [hsecond.current_eq hkind', ← defaultEnd_eq hsecond] at hcode
  obtain ⟨final₀, modules₀, s₀', hpairs', rfl, rfl, hread⟩ := hcode.code
  refine ⟨_, s₀', hpairs', ?_, @Reads.exportDefault start _ _ _ _
    ((hpairs.kind_iff (by simp) (by simp)).2 hkind) hread⟩
  rw [hsecond.current_eq hkind', hsecond.declaredName?_eq]
  simp only [Phrase.shift, Statement.shift, Code.shift, Span.shift_cover, Token.shift_span]

/-- An exported declaration is read alone if its code is. -/
theorem exportDeclaration_alone (start : Span) {codeEnd : CodeEnd} (hpairs : e.Pairs s s₀)
    (hmodule : s.atModule = false) (hend : declarationEnd? s.kind = some codeEnd)
    (hkind : s.kind ≠ .rightBrace) (hnames : declaredNames s s' ≠ [])
    (hcode : ReadAlone e (.code codeEnd true 0 s.current.span final modules) s' s₀) :
    ReadAlone e (.exported (start.shift e.offset) (.exportDeclaration (declaredNames s s')
      (.mk (s.current.span.cover final) modules)
      ((start.shift e.offset).cover (s.current.span.cover final)))) s' s₀ := by
  rw [hpairs.current_eq hkind] at hcode ⊢
  obtain ⟨final₀, modules₀, s₀', hpairs', rfl, rfl, hread⟩ := hcode.code
  have hnames₀ := declaredNames_eq hpairs hpairs'
  refine ⟨_, s₀', hpairs', ?_, @Reads.exportDeclaration start _ _ _ _ _
    (hpairs.atModule_eq.trans hmodule) ((congrArg _ (hpairs.kind_eq_of_ne hkind)).trans hend) hread
    (hnames₀ ▸ hnames)⟩
  rw [hnames₀]
  simp only [Phrase.shift, Statement.shift, Code.shift, Span.shift_cover, Token.shift_span]

/-- The braces of the declaration stand inside of those of the enclosure. -/
theorem declaration_alone (start : Span) (exported : Bool) (placement : Placement)
    {name : Option String} {body : List Statement} (hpairs : e.Pairs s s₀)
    (hname : moduleName s.advance = (name, s₁)) (hopen : s₁.kind = .leftBrace)
    (hbody : Reads (.statements body) s₁.advance s') (hclose : s'.kind = .rightBrace)
    (hlength : e.after.length ≤ s'.advance.ahead.length)
    (halone : ∀ {s₂ : TokenStream}, e.Pairs s₁.advance s₂ → ReadAlone e (.statements body) s' s₂) :
    ReadAlone e (.declaration (start.shift e.offset) exported placement
      (.mk name exported placement body ((start.shift e.offset).cover s'.current.span)
        ⟨s₁.current.span.stop, s'.current.span.start⟩)) s'.advance s₀ := by
  have hbodyLength := Nat.le_trans hlength (follows_advance _).length_le
  have hopenLength := Nat.le_trans hbodyLength hbody.follows.length_le
  have hnameLength := Nat.le_trans hopenLength
    ((follows_advance _).trans (follows_moduleName hname)).length_le
  obtain ⟨s₁₀, hpairs₁, hname₀⟩ := moduleName_alone (hpairs.advance hnameLength).1 hname
  obtain ⟨hinner, hopening⟩ := hpairs₁.advance hopenLength
  obtain ⟨body₀, s₀', hpairs', rfl, hread⟩ := (halone hinner).statements
  obtain ⟨houter, hclosing⟩ := hpairs'.advance hlength
  refine ⟨_, s₀'.advance, houter, ?_, @Reads.declaration start exported placement _ _ _ _ _
    hname₀ ((hpairs₁.kind_eq hopenLength).trans hopen) hread
    ((hpairs'.kind_eq hlength).trans hclose)⟩
  rw [hopening, hclosing]
  simp only [Phrase.shift, ModuleDeclaration.shift, Span.shift_cover, Token.shift_span]
  rfl

/-- Code ends at a closing bracket, or alone where this is the brace of the enclosure. -/
theorem codeAtClose_alone (codeEnd : CodeEnd) (last : Span) (hpairs : e.Pairs s s₀)
    (hkind : s.kind.isCloseBracket = true) :
    ReadAlone e (.code codeEnd false 0 (last.shift e.offset) (last.shift e.offset) []) s s₀ := by
  refine ⟨.code codeEnd false 0 last last [], s₀, hpairs, rfl, ?_⟩
  by_cases hbrace : s.kind = .rightBrace
  · rcases hpairs.ends_iff.2 (.inl hbrace) with hbrace₀ | hend₀
    · exact .codeAtClose (by rw [hbrace₀]; rfl)
    · exact .codeAtEnd hend₀
  · exact .codeAtClose (hpairs.kind_eq_of_ne hbrace ▸ hkind)

/-- Code that starts with a module is read alone if the module and the code behind it are. -/
theorem codeModule_alone {codeEnd : CodeEnd} {isFirst : Bool} {depth : Nat} (last : Span)
    {d : ModuleDeclaration} (hpairs : e.Pairs s s₀) (hat : onModule isFirst depth s = true)
    (hmodule : ReadAlone e (.declaration s.current.span false .nested d) s₁ s₀)
    (halone : ∀ {s₂ : TokenStream} {last : Span}, e.Pairs s₁ s₂ → d.span = last.shift e.offset →
      ReadAlone e (.code codeEnd false depth d.span final modules) s' s₂) :
    ReadAlone e (.code codeEnd isFirst depth (last.shift e.offset) final (d :: modules)) s' s₀ := by
  rw [hpairs.current_eq (by simp [kind_of_onModule hat])] at hmodule
  obtain ⟨d₀, s₁₀, hpairs₁, rfl, hread₁⟩ := hmodule.declaration
  have hcode := halone hpairs₁ (ModuleDeclaration.span_shift ..)
  rw [ModuleDeclaration.span_shift] at hcode
  obtain ⟨final₀, modules₀, s₀', hpairs', rfl, rfl, hread₂⟩ := hcode.code
  exact ⟨.code codeEnd isFirst depth last final₀ (d₀ :: modules₀), s₀', hpairs', rfl,
    .codeModule ((onModule_eq hpairs _ _).trans hat) hread₁ hread₂⟩

/-- Code that starts with a token is read alone if the code behind it is. -/
theorem codeToken_alone {codeEnd : CodeEnd} {isFirst : Bool} {depth : Nat} (last : Span)
    (hpairs : e.Pairs s s₀) (hgoes : GoesOn codeEnd isFirst depth s)
    (hlength : e.after.length ≤ s.advance.ahead.length)
    (hcode : ReadAlone e
      (.code codeEnd false (depthAfter s.kind depth) s.current.span final modules) s' s₀.advance) :
    ReadAlone e (.code codeEnd isFirst depth (last.shift e.offset) final modules) s' s₀ := by
  rw [(hpairs.advance hlength).2, ← hpairs.kind_eq hlength] at hcode
  obtain ⟨final₀, modules₀, s₀', hpairs', rfl, rfl, hread⟩ := hcode.code
  exact ⟨.code codeEnd isFirst depth last final₀ modules₀, s₀', hpairs', rfl,
    .codeToken (hgoes.alone hpairs hlength) hread⟩

end Forms

/-- What is read between braces is read alone, with its spans moved. The induction is on what is
read; that the braces are not left is what makes each step possible. -/
theorem Reads.alone {e : Enclosure} {phrase : Phrase} {s s' s₀ : TokenStream}
    (h : Reads phrase s s') (hpairs : e.Pairs s s₀) (hbegins : phrase.BeginsFrom e.offset)
    (hlength : e.after.length ≤ s'.ahead.length) : ReadAlone e phrase s' s₀ := by
  induction h generalizing s₀ with
  | nil hkind =>
      exact ⟨.statements [], s₀, hpairs, rfl, .nil (hpairs.ends_iff.2 hkind.symm).symm⟩
  | semicolon hkind hbody ih =>
      obtain ⟨body₀, s₀', hpairs', rfl, hread⟩ :=
        (ih (hpairs.advance_of_kind (by simp [hkind])) hbegins hlength).statements
      exact ⟨_, s₀', hpairs', rfl, .semicolon ((hpairs.kind_iff (by simp) (by simp)).2 hkind) hread⟩
  | cons hend hsemicolon hstatement hbody ihStatement ihBody =>
      obtain ⟨st₀, s₁₀, hpairs₁, rfl, hread₁⟩ :=
        (ihStatement hpairs trivial (Nat.le_trans hlength hbody.follows.length_le)).statement
      obtain ⟨body₀, s₀', hpairs', rfl, hread₂⟩ := (ihBody hpairs₁ trivial hlength).statements
      -- a statement starts with no closing brace, so that the same token stands alone
      have hkind := hpairs.kind_eq_of_ne hstatement.statement_kind_ne
      exact ⟨.statements (st₀ :: body₀), s₀', hpairs', rfl,
        .cons (hkind ▸ hend) (hkind ▸ hsemicolon) hread₁ hread₂⟩
  | importFrom hat hread =>
      obtain ⟨st₀, s₀', hpairs', rfl, hread₀⟩ := importDeclaration_alone hpairs hat hread hlength
      exact ⟨.statement st₀, s₀', hpairs', rfl, .importFrom (hpairs.atImport_eq.trans hat) hread₀⟩
  | exportStatement hat hread ih =>
      have hkind := atKeyword_iff.1 hat
      have hcurrent := hpairs.current_eq (by simp [hkind])
      have halone := ih (hpairs.advance_of_kind (by simp [hkind]))
        ⟨_, congrArg Token.span hcurrent⟩ hlength
      rw [hcurrent] at halone
      obtain ⟨st₀, s₀', hpairs', rfl, hread₀⟩ := halone.exported
      exact ⟨.statement st₀, s₀', hpairs', rfl,
        .exportStatement ((hpairs.atKeyword_eq _).trans hat) hread₀⟩
  | module hat hread ih =>
      have hcurrent := hpairs.current_eq (by simp [kind_of_atModule hat])
      have halone := ih hpairs ⟨_, congrArg Token.span hcurrent⟩ hlength
      rw [hcurrent] at halone
      obtain ⟨d₀, s₀', hpairs', rfl, hread₀⟩ := halone.declaration
      exact ⟨.statement (.module d₀), s₀', hpairs', rfl,
        .module (hpairs.atModule_eq.trans hat) hread₀⟩
  | code himport hexport hmodule hcode ih =>
      have hcurrent := hpairs.current_eq hcode.code_kind_ne
      exact code_alone hpairs himport hexport hmodule hcode.code_kind_ne
        (ih hpairs ⟨_, congrArg Token.span hcurrent⟩ hlength)
  | exportModule hat hread ih =>
      obtain ⟨start₀, rfl⟩ := hbegins
      obtain ⟨d₀, s₀', hpairs', rfl, hread₀⟩ := (ih hpairs ⟨start₀, rfl⟩ hlength).declaration
      exact ⟨.exported start₀ (.module d₀), s₀', hpairs', rfl,
        .exportModule (hpairs.atModule_eq.trans hat) hread₀⟩
  | exportAll hkind hread =>
      obtain ⟨start₀, rfl⟩ := hbegins
      obtain ⟨st₀, s₀', hpairs', rfl, hread₀⟩ :=
        exportAllClause_alone (hpairs.advance_of_kind (by simp [hkind]))
          (hpairs.isSome_previous (by simp [hkind])) hread hlength
      exact ⟨.exported start₀ st₀, s₀', hpairs', rfl,
        .exportAll ((hpairs.kind_iff (by simp) (by simp)).2 hkind) hread₀⟩
  | exportNames hkind hread =>
      obtain ⟨start₀, rfl⟩ := hbegins
      obtain ⟨st₀, s₀', hpairs', rfl, hread₀⟩ :=
        exportNamesClause_alone (hpairs.advance_of_kind (by simp [hkind]))
          (hpairs.isSome_previous (by simp [hkind])) hread hlength
      exact ⟨.exported start₀ st₀, s₀', hpairs', rfl,
        .exportNames ((hpairs.kind_iff (by simp) (by simp)).2 hkind) hread₀⟩
  | exportDefault hkind hcode ih =>
      obtain ⟨start₀, rfl⟩ := hbegins
      have hsecond := hpairs.advance_of_kind (by simp [hkind])
      have hcurrent := hsecond.current_eq hcode.code_kind_ne
      exact exportDefault_alone start₀ hpairs hkind hcode.code_kind_ne
        (ih hsecond ⟨_, congrArg Token.span hcurrent⟩ hlength)
  | exportDeclaration hmodule hend hcode hnames ih =>
      obtain ⟨start₀, rfl⟩ := hbegins
      have hcurrent := hpairs.current_eq hcode.code_kind_ne
      exact exportDeclaration_alone start₀ hpairs hmodule hend hcode.code_kind_ne hnames
        (ih hpairs ⟨_, congrArg Token.span hcurrent⟩ hlength)
  | declaration hname hopen hbody hclose ih =>
      obtain ⟨start₀, rfl⟩ := hbegins
      -- the brace that closes the inner body is still in front of the outer one
      exact declaration_alone start₀ _ _ hpairs hname hopen hbody hclose hlength fun hinner =>
        ih hinner trivial (Nat.le_trans hlength (follows_advance _).length_le)
  | codeAtEnd hkind =>
      obtain ⟨last₀, rfl⟩ := hbegins
      exact ⟨.code _ _ 0 last₀ last₀ [], s₀, hpairs, rfl,
        .codeAtEnd ((hpairs.kind_eq_of_ne (by simp [hkind])).trans hkind)⟩
  | codeAtSemicolon hkind =>
      obtain ⟨last₀, rfl⟩ := hbegins
      rw [hpairs.current_eq (by simp [hkind])]
      exact ⟨.code _ _ 0 last₀ s₀.current.span [], s₀.advance,
        hpairs.advance_of_kind (by simp [hkind]), rfl,
        .codeAtSemicolon ((hpairs.kind_iff (by simp) (by simp)).2 hkind)⟩
  | codeAtClose hkind =>
      obtain ⟨last₀, rfl⟩ := hbegins
      exact codeAtClose_alone _ last₀ hpairs hkind
  | codeAtStatement hat =>
      obtain ⟨last₀, rfl⟩ := hbegins
      exact ⟨.code _ false 0 last₀ last₀ [], s₀, hpairs, rfl,
        .codeAtStatement (hpairs.startsHere_eq.trans hat)⟩
  | codeAtDeclaration hkind =>
      obtain ⟨last₀, rfl⟩ := hbegins
      obtain ⟨hpairs', hcurrent⟩ := hpairs.advance hlength
      rw [hcurrent]
      exact ⟨.code .declaration _ 1 last₀ s₀.current.span [], s₀.advance, hpairs', rfl,
        .codeAtDeclaration ((hpairs.kind_eq hlength).trans hkind)⟩
  | codeModule hat hmodule hcode ihModule ihCode =>
      obtain ⟨last₀, rfl⟩ := hbegins
      have hcurrent := hpairs.current_eq (by simp [kind_of_onModule hat])
      have hmoduleLength := Nat.le_trans hlength hcode.follows.length_le
      -- the code behind a module begins from the span of the module, which is moved with it
      exact codeModule_alone last₀ hpairs hat
        (ihModule hpairs ⟨_, congrArg Token.span hcurrent⟩ hmoduleLength)
        fun hpairs₁ hspan => ihCode hpairs₁ ⟨_, hspan⟩ hlength
  | codeToken hgoes hcode ih =>
      obtain ⟨last₀, rfl⟩ := hbegins
      have hnext := Nat.le_trans hlength hcode.follows.length_le
      obtain ⟨hpairs₁, hcurrent⟩ := hpairs.advance hnext
      exact codeToken_alone last₀ hpairs hgoes hnext
        (ih hpairs₁ ⟨_, congrArg Token.span hcurrent⟩ hlength)

/-! ## Declarations at any depth -/

/-- The module declarations of a phrase that stand in no other declaration there. -/
def Phrase.modules : Phrase → List ModuleDeclaration
  | .statements body => body.flatMap Statement.modules
  | .statement st | .exported _ st => st.modules
  | .declaration _ _ _ d => [d]
  | .code _ _ _ _ _ modules => modules

/-- No module is declared in a statement in clauses. -/
theorem modules_of_ended {α : Type} {f : TokenStream → Except SyntaxFault (α × TokenStream)}
    {build : α → Span → Statement} {start : Span} {s s' : TokenStream} {statement : Statement}
    (hbuild : ∀ a span, (build a span).modules = [])
    (h : ended f build start s = .ok (statement, s')) : statement.modules = [] := by
  obtain ⟨⟨a, s₁⟩, -, h⟩ := Except.bind_eq_ok h
  obtain ⟨⟨last, s₂⟩, -, h⟩ := Except.bind_eq_ok h
  cases h
  exact hbuild a _

/-- The tokens of a body stand between two braces among those of `s`. -/
structure BodyRead (d : ModuleDeclaration) (s opening closing : TokenStream) : Prop where
  follows : opening.Follows s
  opening_kind : opening.kind = .leftBrace
  closing_kind : closing.kind = .rightBrace
  span : d.bodySpan = ⟨opening.current.span.stop, closing.current.span.start⟩
  reads : Reads (.statements d.body) opening.advance closing

/-- The body of a declaration was read between two braces at or behind `s`. -/
def ReadBehind (d : ModuleDeclaration) (s : TokenStream) : Prop :=
  ∃ opening closing, BodyRead d s opening closing

/-- A body that was read behind a place was read behind each earlier one. -/
theorem ReadBehind.of_follows {d : ModuleDeclaration} {s s₀ : TokenStream} (h : ReadBehind d s)
    (hs : s.Follows s₀) : ReadBehind d s₀ := by
  obtain ⟨opening, closing, hbody⟩ := h
  exact ⟨opening, closing, { hbody with follows := hbody.follows.trans hs }⟩

/-- The body of every module declaration of a phrase was read between braces. -/
theorem Reads.readBehind_of_mem {phrase : Phrase} {s s' : TokenStream} {d : ModuleDeclaration}
    (h : Reads phrase s s') (hd : d ∈ phrase.modules) : ReadBehind d s := by
  induction h with
  | nil => simp [Phrase.modules] at hd
  | semicolon _ _ ih => exact (ih hd).of_follows (follows_advance _)
  | cons _ _ hstatement _ ihStatement ihBody =>
      rw [Phrase.modules, List.flatMap_cons, List.mem_append] at hd
      cases hd with
      | inl hd => exact ihStatement hd
      | inr hd => exact (ihBody hd).of_follows hstatement.follows
  | importFrom _ hread =>
      rw [importDeclaration_eq] at hread
      rw [Phrase.modules, modules_of_ended (fun _ _ => rfl) hread] at hd
      cases hd
  | exportStatement _ _ ih => exact (ih hd).of_follows (follows_advance _)
  | module _ _ ih => exact ih hd
  | code _ _ _ _ ih => exact ih hd
  | exportModule _ _ ih => exact ih hd
  | exportAll _ hread =>
      rw [exportAllClause_eq] at hread
      rw [Phrase.modules, modules_of_ended (fun _ _ => rfl) hread] at hd
      cases hd
  | exportNames _ hread =>
      rw [exportNamesClause_eq] at hread
      rw [Phrase.modules, modules_of_ended (fun _ _ => rfl) hread] at hd
      cases hd
  | exportDefault _ _ ih => exact (ih hd).of_follows (follows_advance _)
  | exportDeclaration _ _ _ _ ih => exact ih hd
  | declaration hname hopen hbody hclose _ =>
      -- the declaration itself: its own body is the one that is read
      obtain rfl := List.mem_singleton.1 hd
      exact ⟨_, _, (follows_moduleName hname).of_advance, hopen, hclose, rfl, hbody⟩
  | codeAtEnd | codeAtSemicolon | codeAtClose | codeAtStatement | codeAtDeclaration =>
      cases hd
  | codeModule _ hmodule _ ihModule ihCode =>
      rw [Phrase.modules, List.mem_cons] at hd
      cases hd with
      | inl hd => exact ihModule (List.mem_singleton.2 hd)
      | inr hd => exact (ihCode hd).of_follows hmodule.follows
  | codeToken _ _ ih => exact (ih hd).of_follows (follows_advance _)

/-- Every body at any depth was read between braces. -/
theorem Reads.readBehind_of_declares {body : List Statement} {d : ModuleDeclaration}
    {s s' : TokenStream} (h : Reads (.statements body) s s') (hd : Declares body d) :
    ReadBehind d s := by
  induction hd with
  | here hmem => exact h.readBehind_of_mem hmem
  | inside _ hmem ih =>
      obtain ⟨opening, closing, houter⟩ := ih
      exact (houter.reads.readBehind_of_mem hmem).of_follows
        ((follows_advance opening).trans houter.follows)

/-! ## Parsing a body by itself -/

/-- The tokens of a text around two braces and between them. -/
theorem exists_ofChars_eq {text : List Char} {opening closing : TokenStream}
    (hopening : opening.Follows (ofTokens (Token.ofChars text)))
    (hopen : opening.kind = .leftBrace) (hclosing : closing.Follows opening.advance)
    (hclose : closing.kind = .rightBrace) :
    ∃ before inner, Token.ofChars text =
        before ++ opening.current :: (inner ++ closing.current :: closing.advance.toList) ∧
      opening.advance.toList = inner ++ closing.toList ∧
      closing.toList = closing.current :: closing.advance.toList := by
  have hclosed := (closed_ofChars text).of_follows hopening
  have hopenList := hclosed.toList_eq (by simp [hopen])
  have hcloseList := ((hclosed.of_follows (follows_advance opening)).of_follows hclosing).toList_eq
    (by simp [hclose])
  obtain ⟨before, hbefore⟩ := hopening
  obtain ⟨inner, hinner⟩ := hclosing
  refine ⟨before, inner, ?_, hinner.symm, hcloseList⟩
  rw [← toList_ofTokens (ofChars_ne_nil text), ← hbefore, hopenList, ← hinner, hcloseList]

/-- The tokens of the text between two braces are the tokens between them, moved. -/
theorem exists_enclosure {text : List Char} {opening closing : TokenStream}
    (hopening : opening.Follows (ofTokens (Token.ofChars text)))
    (hopen : opening.kind = .leftBrace) (hclosing : closing.Follows opening.advance)
    (hclose : closing.kind = .rightBrace) :
    ∃ e : Enclosure, e.offset = opening.current.span.stop ∧
      e.after.length = closing.ahead.length ∧
      e.Pairs opening.advance (ofTokens (Token.ofChars
        (Text.slice text ⟨opening.current.span.stop, closing.current.span.start⟩))) := by
  obtain ⟨before, inner, htokens, hinner, hcloseList⟩ :=
    exists_ofChars_eq hopening hopen hclosing hclose
  have hopenList := ((closed_ofChars text).of_follows hopening).toList_eq (by simp [hopen])
  have hkind : opening.current.kind = .leftBrace := hopen
  obtain ⟨taken, rest, rfl, hstop, hbehind⟩ :=
    Token.tokensFrom_behind before (by simp [hkind]) htokens
  obtain ⟨body, rest', inner₀, rfl, hstart, rfl, hbody⟩ := Token.tokensFrom_cut inner hbehind
  have hslice : Text.slice (taken ++ (body ++ rest'))
      ⟨opening.current.span.stop, closing.current.span.start⟩ = body := by
    rw [Text.slice, Span.length, hstart, hstop, Nat.zero_add, Text.dropBytes_append,
      Nat.add_sub_cancel_left, Text.takeBytes_append]
  have hahead : opening.ahead = inner₀.map (Token.shift opening.current.span.stop) ++
      closing.current :: closing.advance.toList := by
    rw [← hcloseList, ← hinner]
    exact (List.cons.inj hopenList).2
  -- alone, the closing brace is replaced by the end of the input on the same line
  let e : Enclosure :=
    { offset := opening.current.span.stop
      opening := opening.current
      closing := closing.current
      after := closing.advance.toList
      ending := ⟨.endOfInput, ⟨Text.byteLength body, Text.byteLength body⟩,
        closing.current.newlineBefore⟩
      opening_kind := hopen
      closing_kind := hclose
      ending_kind := rfl
      ending_newline := rfl
      after_ne_nil := List.cons_ne_nil _ _ }
  have hinside : opening.advance = e.inside none inner₀ := by
    rw [advance, hahead]
    cases inner₀ <;> rfl
  have halone : ofTokens (Token.ofChars body) = e.alone none inner₀ := by
    have htokens₀ := hbody 0
    rw [hkind, show Token.shift 0 = id from rfl, List.map_id, Nat.zero_add] at htokens₀
    rw [Token.ofChars]
    show ofTokens (Token.tokensFrom (Token.Kind.endsExpression .leftBrace) ⟨0, body⟩) = _
    rw [htokens₀]
    cases inner₀ <;> rfl
  refine ⟨e, rfl, ?_, ?_⟩
  · exact congrArg List.length (List.cons.inj hcloseList).2.symm
  · rw [hslice, hinside, halone]
    exact .mk none inner₀

/-- The body of a module declaration is parsed like a text of its own: the text between its braces
has just its statements, with the spans that they have there. -/
theorem SyntaxTree.parse_body {text : List Char} {tree : SyntaxTree} {d : ModuleDeclaration}
    (h : parse text = .ok tree) (hd : Declares tree.body d) :
    ∃ body, parse (Text.slice text d.bodySpan) = .ok ⟨Text.slice text d.bodySpan, body⟩ ∧
      d.body = Statement.shiftAll d.bodySpan.start body := by
  obtain ⟨-, s', -, hread⟩ := parse_eq_ok.1 h
  obtain ⟨opening, closing, hbody⟩ := hread.readBehind_of_declares hd
  obtain ⟨e, hoffset, hlength, hpairs⟩ := exists_enclosure hbody.follows hbody.opening_kind
    hbody.reads.follows hbody.closing_kind
  obtain ⟨body, s₀', hpairs', hshift, halone⟩ :=
    (hbody.reads.alone hpairs trivial (Nat.le_of_eq hlength)).statements
  rw [← hbody.span] at halone
  refine ⟨body, parse_eq_ok.2 ⟨rfl, s₀', hpairs'.kind_of_length_eq hlength.symm, halone⟩, ?_⟩
  rw [hshift, hbody.span, hoffset]

/-- The text of a module inside another, with an inline module in its code. -/
def nestedText : List Char :=
  "module a \x7b import x from \"y\"\nmodule b \x7b f(module \x7b g \x7d); \x7d \x7d".toList

/-- The declaration of `b` in `nestedText`. -/
def nestedDeclaration : ModuleDeclaration :=
  .mk (some "b") false .statement
    [.code (.mk ⟨40, 56⟩ [.mk none false .nested [.code (.mk ⟨51, 52⟩ [])] ⟨42, 54⟩ ⟨50, 53⟩])]
    ⟨29, 58⟩ ⟨39, 57⟩

/-- The statements of `nestedText`. -/
def nestedBody : List Statement :=
  [.module (.mk (some "a") false .statement
    [.importFrom (.url "y") [.default "x"] ⟨11, 28⟩, .module nestedDeclaration] ⟨0, 60⟩ ⟨10, 59⟩)]

/-- The statements of the text with nested modules. -/
theorem parse_nestedText : SyntaxTree.parse nestedText = .ok ⟨nestedText, nestedBody⟩ := by
  have htokens : Token.ofChars nestedText =
      [⟨.identifier "module", ⟨0, 6⟩, false⟩, ⟨.identifier "a", ⟨7, 8⟩, false⟩,
        ⟨.leftBrace, ⟨9, 10⟩, false⟩, ⟨.keyword .«import», ⟨11, 17⟩, false⟩,
        ⟨.identifier "x", ⟨18, 19⟩, false⟩, ⟨.identifier "from", ⟨20, 24⟩, false⟩,
        ⟨.string "y", ⟨25, 28⟩, false⟩, ⟨.identifier "module", ⟨29, 35⟩, true⟩,
        ⟨.identifier "b", ⟨36, 37⟩, false⟩, ⟨.leftBrace, ⟨38, 39⟩, false⟩,
        ⟨.identifier "f", ⟨40, 41⟩, false⟩, ⟨.leftParen, ⟨41, 42⟩, false⟩,
        ⟨.identifier "module", ⟨42, 48⟩, false⟩, ⟨.leftBrace, ⟨49, 50⟩, false⟩,
        ⟨.identifier "g", ⟨51, 52⟩, false⟩, ⟨.rightBrace, ⟨53, 54⟩, false⟩,
        ⟨.rightParen, ⟨54, 55⟩, false⟩, ⟨.semicolon, ⟨55, 56⟩, false⟩,
        ⟨.rightBrace, ⟨57, 58⟩, false⟩, ⟨.rightBrace, ⟨59, 60⟩, false⟩,
        ⟨.endOfInput, ⟨60, 60⟩, false⟩] := by
    decide +kernel
  exact SyntaxTree.parse_of_tokens htokens rfl

/-- The text between the braces of the nested module is parsed to its statements. -/
theorem SyntaxTree.parse_body_nested :
    parse nestedText = .ok ⟨nestedText, nestedBody⟩ ∧ Declares nestedBody nestedDeclaration ∧
      ∃ body, parse (Text.slice nestedText ⟨39, 57⟩) = .ok ⟨Text.slice nestedText ⟨39, 57⟩, body⟩ ∧
        nestedDeclaration.body = Statement.shiftAll 39 body := by
  have hdeclares : Declares nestedBody nestedDeclaration :=
    .inside (.here (List.mem_singleton.2 rfl)) (List.mem_singleton.2 rfl)
  exact ⟨parse_nestedText, hdeclares, parse_body parse_nestedText hdeclares⟩

end ModuleGraph
