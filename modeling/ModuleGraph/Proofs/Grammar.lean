import ModuleGraph.Proofs.Clauses

/-!
# The grammar of the parser

`Reads` says without a budget what the parser reads: which phrase the tokens between two places are.
The parser accepts exactly that, with every budget that is at least four times the number of tokens
(`Reads.of_accepts`, `Reads.accepts`).
-/

namespace ModuleGraph

open TokenStream ModuleGraph.Parser

/-- What the readers of the parser read. -/
inductive Phrase where
  /-- The statements of a body. -/
  | statements (body : List Statement)
  | statement (statement : Statement)
  /-- What stands behind `export`, whose span is `start`. -/
  | exported (start : Span) (statement : Statement)
  /-- A module declaration whose first token has the span `start`. -/
  | declaration (start : Span) (exported : Bool) (placement : Placement)
      (declaration : ModuleDeclaration)
  /-- The rest of a run of code that is `depth` brackets deep. Its last token so far has the span
  `last`, its last token at all the span `final`. -/
  | code (codeEnd : CodeEnd) (isFirst : Bool) (depth : Nat) (last final : Span)
      (modules : List ModuleDeclaration)

namespace Parser

/-- The depth of brackets behind a token. -/
def depthAfter (kind : Token.Kind) (depth : Nat) : Nat :=
  if kind.isOpenBracket then depth + 1 else if kind.isCloseBracket then depth - 1 else depth

/-- Whether the next statement ends a run of code here. -/
def onStatement (isFirst : Bool) (depth : Nat) (s : TokenStream) : Bool :=
  decide (depth = 0) && !isFirst && startsHere s

/-- Whether the declaration of a module inside code starts here. -/
def onModule (isFirst : Bool) (depth : Nat) (s : TokenStream) : Bool :=
  (s.atModule || s.atAnonymousModule) && !onStatement isFirst depth s

/-- The current token is a token of a run of code, and not its last one. -/
structure GoesOn (codeEnd : CodeEnd) (isFirst : Bool) (depth : Nat) (s : TokenStream) : Prop where
  unfinished : s.kind ≠ .endOfInput
  valid : ∀ fault, s.kind ≠ .invalid fault
  semicolon : ¬(depth = 0 ∧ s.kind = .semicolon)
  close : ¬(depth = 0 ∧ s.kind.isCloseBracket)
  module : onModule isFirst depth s = false
  statement : onStatement isFirst depth s = false
  declaration : ¬(depth = 1 ∧ codeEnd = .declaration ∧ s.kind = .rightBrace)

/-- Where the code behind `export default` ends. -/
def defaultEnd (s : TokenStream) : CodeEnd :=
  if s.atFunctionOrClass then .declaration else .statement

/-- Where the code of a declaration behind `export` ends, if one starts with the token. -/
def declarationEnd? : Token.Kind → Option CodeEnd
  | .keyword .«function» | .keyword .«class» | .identifier "async" => some .declaration
  | .keyword .«let» | .keyword .«const» | .keyword .«var» => some .statement
  | _ => none

/-- The names that the declaration from `s` to `s'` binds. -/
def declaredNames (s s' : TokenStream) : List String :=
  match s.declaredName? with
  | some name => [name]
  | none => boundNames ((s.toList.take (s.ahead.length - s'.ahead.length)).map Token.kind)

/-- The name of a module declaration, where it has one. -/
def moduleName (s : TokenStream) : Option String × TokenStream :=
  (identifier? s.kind).elim (none, s) fun name => (some name, s.advance)

end Parser

/-- The tokens from one place to another are a phrase. -/
inductive Reads : Phrase → TokenStream → TokenStream → Prop where
  -- the statements of a body
  | nil {s : TokenStream} (hkind : s.kind = .endOfInput ∨ s.kind = .rightBrace) :
      Reads (.statements []) s s
  | semicolon {s s' : TokenStream} {body : List Statement} (hkind : s.kind = .semicolon)
      (hbody : Reads (.statements body) s.advance s') : Reads (.statements body) s s'
  | cons {s s₁ s' : TokenStream} {statement : Statement} {body : List Statement}
      (hend : s.kind ≠ .endOfInput) (hsemicolon : s.kind ≠ .semicolon)
      (hstatement : Reads (.statement statement) s s₁) (hbody : Reads (.statements body) s₁ s') :
      Reads (.statements (statement :: body)) s s'
  -- one statement
  | importFrom {s s' : TokenStream} {statement : Statement} {n : Nat} (hat : s.atImport = true)
      (hread : importDeclaration n s = .ok (statement, s')) : Reads (.statement statement) s s'
  | exportStatement {s s' : TokenStream} {statement : Statement}
      (hat : s.atKeyword .«export» = true)
      (hread : Reads (.exported s.current.span statement) s.advance s') :
      Reads (.statement statement) s s'
  | module {s s' : TokenStream} {d : ModuleDeclaration} (hat : s.atModule = true)
      (hread : Reads (.declaration s.current.span false .statement d) s s') :
      Reads (.statement (.module d)) s s'
  | code {s s' : TokenStream} {final : Span} {modules : List ModuleDeclaration}
      (himport : s.atImport = false) (hexport : s.atKeyword .«export» = false)
      (hmodule : s.atModule = false)
      (hcode : Reads (.code .statement true 0 s.current.span final modules) s s') :
      Reads (.statement (.code (.mk (s.current.span.cover final) modules))) s s'
  -- behind `export`
  | exportModule {start : Span} {s s' : TokenStream} {d : ModuleDeclaration}
      (hat : s.atModule = true) (hread : Reads (.declaration start true .statement d) s s') :
      Reads (.exported start (.module d)) s s'
  | exportAll {start : Span} {s s' : TokenStream} {statement : Statement} (hkind : s.kind = .star)
      (hread : exportAllClause start s.advance = .ok (statement, s')) :
      Reads (.exported start statement) s s'
  | exportNames {start : Span} {s s' : TokenStream} {statement : Statement} {n : Nat}
      (hkind : s.kind = .leftBrace)
      (hread : exportNamesClause n start s.advance = .ok (statement, s')) :
      Reads (.exported start statement) s s'
  | exportDefault {start : Span} {s s' : TokenStream} {final : Span}
      {modules : List ModuleDeclaration} (hkind : s.kind = .keyword .«default»)
      (hcode : Reads (.code (defaultEnd s.advance) true 0 s.advance.current.span final modules)
        s.advance s') :
      Reads (.exported start (.exportDefault (s.advance.declaredName?.getD defaultLocal)
        (.mk (s.advance.current.span.cover final) modules)
        (start.cover (s.advance.current.span.cover final)))) s s'
  | exportDeclaration {start : Span} {s s' : TokenStream} {codeEnd : CodeEnd} {final : Span}
      {modules : List ModuleDeclaration} (hmodule : s.atModule = false)
      (hend : declarationEnd? s.kind = some codeEnd)
      (hcode : Reads (.code codeEnd true 0 s.current.span final modules) s s')
      (hnames : declaredNames s s' ≠ []) :
      Reads (.exported start (.exportDeclaration (declaredNames s s')
        (.mk (s.current.span.cover final) modules)
        (start.cover (s.current.span.cover final)))) s s'
  -- module declarations
  | declaration {start : Span} {exported : Bool} {placement : Placement} {s s₁ s' : TokenStream}
      {name : Option String} {body : List Statement}
      (hname : moduleName s.advance = (name, s₁)) (hopen : s₁.kind = .leftBrace)
      (hbody : Reads (.statements body) s₁.advance s') (hclose : s'.kind = .rightBrace) :
      Reads (.declaration start exported placement (.mk name exported placement body
        (start.cover s'.current.span) ⟨s₁.current.span.stop, s'.current.span.start⟩)) s s'.advance
  -- runs of code
  | codeAtEnd {codeEnd : CodeEnd} {isFirst : Bool} {last : Span} {s : TokenStream}
      (hkind : s.kind = .endOfInput) : Reads (.code codeEnd isFirst 0 last last []) s s
  | codeAtSemicolon {codeEnd : CodeEnd} {isFirst : Bool} {last : Span} {s : TokenStream}
      (hkind : s.kind = .semicolon) :
      Reads (.code codeEnd isFirst 0 last s.current.span []) s s.advance
  | codeAtClose {codeEnd : CodeEnd} {last : Span} {s : TokenStream}
      (hkind : s.kind.isCloseBracket = true) : Reads (.code codeEnd false 0 last last []) s s
  | codeAtStatement {codeEnd : CodeEnd} {last : Span} {s : TokenStream}
      (hat : startsHere s = true) : Reads (.code codeEnd false 0 last last []) s s
  | codeAtDeclaration {isFirst : Bool} {last : Span} {s : TokenStream}
      (hkind : s.kind = .rightBrace) :
      Reads (.code .declaration isFirst 1 last s.current.span []) s s.advance
  | codeModule {codeEnd : CodeEnd} {isFirst : Bool} {depth : Nat} {last final : Span}
      {s s₁ s' : TokenStream} {d : ModuleDeclaration} {modules : List ModuleDeclaration}
      (hat : onModule isFirst depth s = true)
      (hmodule : Reads (.declaration s.current.span false .nested d) s s₁)
      (hcode : Reads (.code codeEnd false depth d.span final modules) s₁ s') :
      Reads (.code codeEnd isFirst depth last final (d :: modules)) s s'
  | codeToken {codeEnd : CodeEnd} {isFirst : Bool} {depth : Nat} {last final : Span}
      {s s' : TokenStream} {modules : List ModuleDeclaration}
      (hgoes : GoesOn codeEnd isFirst depth s)
      (hcode : Reads (.code codeEnd false (depthAfter s.kind depth) s.current.span final modules)
        s.advance s') :
      Reads (.code codeEnd isFirst depth last final modules) s s'

namespace Parser

/-- With the budget `n` the parser reads a phrase. -/
def Accepts (n : Nat) : Phrase → TokenStream → TokenStream → Prop
  | .statements body, s, s' =>
    bodyOf n (decide (s'.kind = .rightBrace)) s = .ok (body, s')
  | .statement statement, s, s' => statementOf n s = .ok (statement, s')
  | .exported start statement, s, s' => exportOf n start s = .ok (statement, s')
  | .declaration start exported placement d, s, s' =>
    moduleOf n start exported placement s = .ok (d, s')
  | .code codeEnd isFirst depth last final modules, s, s' =>
    codeFrom n codeEnd isFirst depth last s = .ok ((final, modules), s')

/-- A body ends in front of the closing brace, or at the end of the input. -/
theorem bodyOf_kind {n : Nat} {inBraces : Bool} {s s' : TokenStream} {body : List Statement}
    (h : bodyOf n inBraces s = .ok (body, s')) :
    s'.kind = if inBraces then .rightBrace else .endOfInput := by
  induction n generalizing s body with
  | zero => cases h
  | succ n ih =>
      rw [bodyOf] at h
      split at h
      · split at h <;> cases h
        simp_all
      · split at h
        · cases h
          simp_all
        · split at h
          · exact ih h
          · obtain ⟨⟨statement, s₁⟩, -, h⟩ := Except.bind_eq_ok h
            obtain ⟨⟨statements, s₂⟩, hbody, h⟩ := Except.bind_eq_ok h
            cases h
            exact ih hbody

/-- A module declaration is a name, if it has one, and a body between braces. -/
theorem moduleOf_eq (n : Nat) (start : Span) (exported : Bool) (placement : Placement)
    (s : TokenStream) : moduleOf (n + 1) start exported placement s =
      (moduleName s.advance).2.expect .leftBrace >>= fun r => bodyOf n true r.2 >>= fun q =>
        q.2.expect .rightBrace >>= fun p =>
          .ok (.mk (moduleName s.advance).1 exported placement q.1 (start.cover p.1.span)
            ⟨r.1.span.stop, p.1.span.start⟩, p.2) := by
  rw [moduleOf]
  unfold moduleName identifier?
  dsimp only
  cases s.advance.kind <;> rfl

/-- A statement ends code outside of brackets and behind the first token. -/
theorem onStatement_iff {isFirst : Bool} {depth : Nat} {s : TokenStream} :
    onStatement isFirst depth s = true ↔ depth = 0 ∧ isFirst = false ∧ startsHere s = true := by
  simp [onStatement, and_assoc]

/-- A module in code starts with its word. -/
theorem kind_of_onModule {isFirst : Bool} {depth : Nat} {s : TokenStream}
    (h : onModule isFirst depth s = true) : s.kind = .identifier "module" := by
  rw [onModule, Bool.and_eq_true, Bool.or_eq_true] at h
  exact h.1.elim kind_of_atModule kind_of_atAnonymousModule

/-- No module in code starts with another token. -/
theorem onModule_eq_false {isFirst : Bool} {depth : Nat} {s : TokenStream}
    (h : s.kind ≠ .identifier "module") : onModule isFirst depth s = false :=
  Bool.eq_false_iff.2 (mt kind_of_onModule h)

/-- No statement ends code inside brackets. -/
theorem onStatement_eq_false {isFirst : Bool} {depth : Nat} {s : TokenStream} (h : depth ≠ 0) :
    onStatement isFirst depth s = false := by
  simp [onStatement, h]

/-- At the end of the input code ends, unless a bracket is open. -/
theorem codeFrom_endOfInput (n : Nat) (codeEnd : CodeEnd) (isFirst : Bool) (depth : Nat)
    (last : Span) {s : TokenStream} (h : s.kind = .endOfInput) :
    codeFrom (n + 1) codeEnd isFirst depth last s =
      if depth = 0 then .ok ((last, []), s) else .error (s.fault .unclosedBracket) := by
  have hkind : s.current.kind = .endOfInput := h
  rw [codeFrom]
  dsimp only
  rw [hkind]

/-- At an invalid token code is faulty. -/
theorem codeFrom_invalid (n : Nat) (codeEnd : CodeEnd) (isFirst : Bool) (depth : Nat)
    (last : Span) {s : TokenStream} {fault : LexicalFault} (h : s.kind = .invalid fault) :
    codeFrom (n + 1) codeEnd isFirst depth last s = .error (s.fault (.lexical fault)) := by
  have hkind : s.current.kind = .invalid fault := h
  rw [codeFrom]
  dsimp only
  rw [hkind]

/-- One step of a run of code, at a token that is neither the last one nor invalid. -/
theorem codeFrom_eq (n : Nat) (codeEnd : CodeEnd) (isFirst : Bool) (depth : Nat) (last : Span)
    {s : TokenStream} (hend : s.kind ≠ .endOfInput) (hvalid : ∀ fault, s.kind ≠ .invalid fault) :
    codeFrom (n + 1) codeEnd isFirst depth last s =
      if depth = 0 ∧ s.kind = .semicolon then .ok ((s.current.span, []), s.advance)
      else if depth = 0 ∧ s.kind.isCloseBracket then
        if isFirst then .error (s.unexpected .nothing) else .ok ((last, []), s)
      else if onModule isFirst depth s then
        moduleOf n s.current.span false .nested s >>= fun r =>
          codeFrom n codeEnd false depth r.1.span r.2 >>= fun q =>
            .ok ((q.1.1, r.1 :: q.1.2), q.2)
      else if onStatement isFirst depth s then .ok ((last, []), s)
      else if depth = 1 ∧ codeEnd = .declaration ∧ s.kind = .rightBrace then
        .ok ((s.current.span, []), s.advance)
      else codeFrom n codeEnd false (depthAfter s.kind depth) s.current.span s.advance := by
  rw [codeFrom]
  dsimp only
  split
  · exact absurd ‹_› hend
  · exact absurd ‹_› (hvalid _)
  · change (if depth = 0 ∧ s.kind = .semicolon then _ else if depth = 0 ∧ s.kind.isCloseBracket
      then _ else if onModule isFirst depth s then _ else if onStatement isFirst depth s then _
      else if s.kind.isOpenBracket then _ else if s.kind.isCloseBracket then
        if depth = 1 ∧ codeEnd = .declaration ∧ s.kind = .rightBrace then _ else _ else _) = _
    -- three kinds of brackets are counted in one way, but only a brace can end a declaration
    have hlast : (if s.kind.isOpenBracket then
          codeFrom n codeEnd false (depth + 1) s.current.span s.advance
        else if s.kind.isCloseBracket then
          if depth = 1 ∧ codeEnd = .declaration ∧ s.kind = .rightBrace then
            .ok ((s.current.span, []), s.advance)
          else codeFrom n codeEnd false (depth - 1) s.current.span s.advance
        else codeFrom n codeEnd false depth s.current.span s.advance) =
        if depth = 1 ∧ codeEnd = .declaration ∧ s.kind = .rightBrace then
          .ok ((s.current.span, []), s.advance)
        else codeFrom n codeEnd false (depthAfter s.kind depth) s.current.span s.advance := by
      unfold depthAfter
      by_cases hbrace : s.kind = .rightBrace
      · simp only [hbrace]
        rfl
      · simp only [hbrace, and_false, if_false]
        split
        · rfl
        · split <;> rfl
    rw [hlast]

section Equations

variable {n : Nat} {s : TokenStream}

/-- A statement that starts with `import` is an import declaration. -/
theorem statementOf_import (h : s.atImport = true) :
    statementOf (n + 1) s = importDeclaration n s := by
  rw [statementOf, if_pos h]

/-- A statement that starts with `export` is what is exported behind it. -/
theorem statementOf_export (h : s.atKeyword .«export» = true) :
    statementOf (n + 1) s = exportOf n s.current.span s.advance := by
  have himport : s.atImport = false := by simp [atImport, atKeyword, atKeyword_iff.1 h]
  rw [statementOf, himport, h]
  rfl

/-- A statement at a module declaration is this declaration. -/
theorem statementOf_module (h : s.atModule = true) : statementOf (n + 1) s =
    moduleOf n s.current.span false .statement s >>= fun r => .ok (.module r.1, r.2) := by
  have himport : s.atImport = false := by simp [atImport, atKeyword, kind_of_atModule h]
  have hexport : s.atKeyword .«export» = false := by simp [atKeyword, kind_of_atModule h]
  rw [statementOf, himport, hexport, h]
  rfl

/-- Any other statement is a run of code. -/
theorem statementOf_code (himport : s.atImport = false) (hexport : s.atKeyword .«export» = false)
    (hmodule : s.atModule = false) : statementOf (n + 1) s =
      codeFrom n .statement true 0 s.current.span s >>= fun r =>
        .ok (.code (.mk (s.current.span.cover r.1.1) r.1.2), r.2) := by
  rw [statementOf, himport, hexport, hmodule]
  rfl

/-- Behind `export` a module declaration is read as an exported one. -/
theorem exportOf_module {start : Span} (h : s.atModule = true) : exportOf (n + 1) start s =
    moduleOf n start true .statement s >>= fun r => .ok (.module r.1, r.2) := by
  rw [exportOf, if_pos h]

/-- Behind `export`, where no module declaration starts. -/
theorem exportOf_eq {start : Span} (h : s.atModule = false) : exportOf (n + 1) start s =
    if s.kind = .star then exportAllClause start s.advance
    else if s.kind = .leftBrace then exportNamesClause n start s.advance
    else if s.kind = .keyword .«default» then
      codeFrom n (defaultEnd s.advance) true 0 s.advance.current.span s.advance >>= fun r =>
        .ok (.exportDefault (s.advance.declaredName?.getD defaultLocal)
          (.mk (s.advance.current.span.cover r.1.1) r.1.2)
          (start.cover (s.advance.current.span.cover r.1.1)), r.2)
    else (declarationEnd? s.kind).elim (.error (s.unexpected .exportClause)) fun codeEnd =>
      exportedDeclaration n codeEnd start s := by
  rw [exportOf, h, if_neg Bool.false_ne_true]
  split <;> simp_all [declarationEnd?]
  rfl

end Equations

section Soundness

variable {n : Nat} {s s' : TokenStream}
  (ih : ∀ {m : Nat} {phrase : Phrase} {s s' : TokenStream}, m ≤ n → Accepts m phrase s s' →
    Reads phrase s s')

include ih

/-- What the parser accepts as statements follows the grammar, step by step. -/
theorem reads_statements {body : List Statement} (h : Accepts (n + 1) (.statements body) s s') :
    Reads (.statements body) s s' := by
  rw [Accepts, bodyOf] at h
  split at h
  · next hend =>
      split at h <;> cases h
      exact .nil (.inl hend)
  · next hend =>
      split at h
      · next hbrace =>
          cases h
          exact .nil (.inr hbrace.1)
      · split at h
        · next hsemicolon => exact .semicolon hsemicolon (ih (Nat.le_refl n) h)
        · next hsemicolon =>
            obtain ⟨⟨statement, s₁⟩, hstatement, h⟩ := Except.bind_eq_ok h
            obtain ⟨⟨statements, s₂⟩, hbody, h⟩ := Except.bind_eq_ok h
            cases h
            have hread : Reads (.statement statement) s s₁ := ih (Nat.le_refl n) hstatement
            exact .cons hend hsemicolon hread (ih (Nat.le_refl n) hbody)

/-- What the parser accepts as a statement follows the grammar. -/
theorem reads_statement {statement : Statement}
    (h : Accepts (n + 1) (.statement statement) s s') : Reads (.statement statement) s s' := by
  rw [Accepts, statementOf] at h
  split at h
  · next hat => exact .importFrom hat h
  · next himport =>
      split at h
      · next hat => exact .exportStatement hat (ih (Nat.le_refl n) h)
      · next hexport =>
          split at h
          · next hat =>
              obtain ⟨⟨d, s₁⟩, hmodule, h⟩ := Except.bind_eq_ok h
              cases h
              exact .module hat (ih (Nat.le_refl n) hmodule)
          · next hmodule =>
              obtain ⟨⟨⟨final, modules⟩, s₁⟩, hcode, h⟩ := Except.bind_eq_ok h
              cases h
              exact .code (Bool.eq_false_iff.2 himport) (Bool.eq_false_iff.2 hexport)
                (Bool.eq_false_iff.2 hmodule) (ih (Nat.le_refl n) hcode)

/-- What the parser accepts as an exported declaration follows the grammar. -/
theorem reads_exportDeclaration {start : Span} {codeEnd : CodeEnd} {statement : Statement}
    (hmodule : s.atModule = false) (hend : declarationEnd? s.kind = some codeEnd)
    (h : exportedDeclaration n codeEnd start s = .ok (statement, s')) :
    Reads (.exported start statement) s s' := by
  cases n with
  | zero => cases h
  | succ n =>
      rw [exportedDeclaration] at h
      obtain ⟨⟨⟨final, modules⟩, s₁⟩, hcode, h⟩ := Except.bind_eq_ok h
      change (if (declaredNames s s₁).isEmpty then _ else _) = _ at h
      split at h
      · cases h
      · next hnames =>
          cases h
          exact .exportDeclaration hmodule hend (ih (Nat.le_succ n) hcode)
            (by simpa using hnames)

/-- What the parser accepts behind `export` follows the grammar. -/
theorem reads_exported {start : Span} {statement : Statement}
    (h : Accepts (n + 1) (.exported start statement) s s') :
    Reads (.exported start statement) s s' := by
  rw [Accepts] at h
  by_cases hat : s.atModule = true
  · rw [exportOf_module hat] at h
    obtain ⟨⟨d, s₁⟩, hmodule, h⟩ := Except.bind_eq_ok h
    cases h
    exact .exportModule hat (ih (Nat.le_refl n) hmodule)
  · have hmodule := Bool.eq_false_iff.2 hat
    rw [exportOf_eq hmodule] at h
    split at h
    · next hkind => exact .exportAll hkind h
    split at h
    · next hkind => exact .exportNames hkind h
    split at h
    · next hkind =>
        obtain ⟨⟨⟨final, modules⟩, s₁⟩, hcode, h⟩ := Except.bind_eq_ok h
        cases h
        exact .exportDefault hkind (ih (Nat.le_refl n) hcode)
    · cases hend : declarationEnd? s.kind with
      | none =>
          rw [hend] at h
          cases h
      | some codeEnd =>
          rw [hend] at h
          exact reads_exportDeclaration ih hmodule hend h

/-- What the parser accepts as a module declaration follows the grammar. -/
theorem reads_declaration {start : Span} {exported : Bool} {placement : Placement}
    {d : ModuleDeclaration} (h : Accepts (n + 1) (.declaration start exported placement d) s s') :
    Reads (.declaration start exported placement d) s s' := by
  rw [Accepts, moduleOf_eq] at h
  obtain ⟨⟨opening, s₁⟩, hopen, h⟩ := Except.bind_eq_ok h
  obtain ⟨⟨body, s₂⟩, hbody, h⟩ := Except.bind_eq_ok h
  obtain ⟨⟨closing, s₃⟩, hclose, h⟩ := Except.bind_eq_ok h
  cases h
  obtain ⟨hopenKind, rfl, rfl⟩ := expect_eq_ok hopen
  obtain ⟨hcloseKind, rfl, rfl⟩ := expect_eq_ok hclose
  have hread : Accepts n (.statements body) (moduleName s.advance).2.advance s₂ := by
    dsimp only at hcloseKind
    rw [Accepts, hcloseKind]
    exact hbody
  exact .declaration rfl hopenKind (ih (Nat.le_refl n) hread) hcloseKind

/-- What the parser accepts as code follows the grammar. -/
theorem reads_code {codeEnd : CodeEnd} {isFirst : Bool} {depth : Nat} {last final : Span}
    {modules : List ModuleDeclaration}
    (h : Accepts (n + 1) (.code codeEnd isFirst depth last final modules) s s') :
    Reads (.code codeEnd isFirst depth last final modules) s s' := by
  rw [Accepts] at h
  by_cases hend : s.kind = .endOfInput
  · rw [codeFrom_endOfInput n codeEnd isFirst depth last hend] at h
    split at h <;> cases h
    next hdepth => exact hdepth ▸ .codeAtEnd hend
  by_cases hinvalid : ∃ fault, s.kind = .invalid fault
  · obtain ⟨fault, hfault⟩ := hinvalid
    rw [codeFrom_invalid n codeEnd isFirst depth last hfault] at h
    cases h
  · have hvalid : ∀ fault, s.kind ≠ .invalid fault := fun fault h => hinvalid ⟨fault, h⟩
    rw [codeFrom_eq n codeEnd isFirst depth last hend hvalid] at h
    split at h
    · next hsemicolon =>
        cases h
        exact hsemicolon.1 ▸ .codeAtSemicolon hsemicolon.2
    next hsemicolon =>
    split at h
    · next hclose =>
        split at h <;> cases h
        next hfirst =>
          rw [Bool.not_eq_true] at hfirst
          subst hfirst
          exact hclose.1 ▸ .codeAtClose hclose.2
    next hclose =>
    split at h
    · next hmodule =>
        obtain ⟨⟨d, s₁⟩, hread, h⟩ := Except.bind_eq_ok h
        obtain ⟨⟨⟨final, modules⟩, s₂⟩, hcode, h⟩ := Except.bind_eq_ok h
        cases h
        have hread : Reads (.declaration s.current.span false .nested d) s s₁ :=
          ih (Nat.le_refl n) hread
        exact .codeModule hmodule hread (ih (Nat.le_refl n) hcode)
    next hmodule =>
    split at h
    · next hstatement =>
        cases h
        obtain ⟨rfl, rfl, hat⟩ := onStatement_iff.1 hstatement
        exact .codeAtStatement hat
    next hstatement =>
    split at h
    · next hdeclaration =>
        cases h
        obtain ⟨rfl, rfl, hkind⟩ := hdeclaration
        exact .codeAtDeclaration hkind
    next hdeclaration =>
    -- no rule ends the code here, so that the token belongs to it
    exact .codeToken ⟨hend, hvalid, hsemicolon, hclose, Bool.eq_false_iff.2 hmodule,
      Bool.eq_false_iff.2 hstatement, hdeclaration⟩ (ih (Nat.le_refl n) h)

end Soundness

section Completeness

variable {n : Nat} {s s₁ s' : TokenStream}

/-- No module declaration starts with another token than its word. -/
theorem atModule_eq_false (h : s.kind ≠ .identifier "module") : s.atModule = false :=
  Bool.eq_false_iff.2 (mt kind_of_atModule h)

/-- The parser accepts no statements where a body ends. -/
theorem accepts_nil (hkind : s.kind = .endOfInput ∨ s.kind = .rightBrace) :
    Accepts (n + 1) (.statements []) s s := by
  rw [Accepts, bodyOf]
  rcases hkind with hkind | hkind <;> simp [hkind]

/-- The parser passes over a semicolon between statements. -/
theorem accepts_semicolon {body : List Statement} (hkind : s.kind = .semicolon)
    (hbody : Accepts n (.statements body) s.advance s') :
    Accepts (n + 1) (.statements body) s s' := by
  rw [Accepts, bodyOf, if_neg (by simp [hkind]), if_neg (by simp [hkind]), if_pos hkind]
  exact hbody

/-- The parser accepts a statement with others behind it. -/
theorem accepts_cons {statement : Statement} {body : List Statement} (hend : s.kind ≠ .endOfInput)
    (hbrace : s.kind ≠ .rightBrace) (hsemicolon : s.kind ≠ .semicolon)
    (hstatement : Accepts n (.statement statement) s s₁)
    (hbody : Accepts n (.statements body) s₁ s') :
    Accepts (n + 1) (.statements (statement :: body)) s s' := by
  have hread : statementOf n s = .ok (statement, s₁) := hstatement
  have hread' : bodyOf n (decide (s'.kind = .rightBrace)) s₁ = .ok (body, s') := hbody
  rw [Accepts, bodyOf, if_neg hend, if_neg (by simp [hbrace]), if_neg hsemicolon, hread]
  show bodyOf n _ s₁ >>= _ = _
  rw [hread']
  rfl

/-- The parser accepts a module declaration as a statement. -/
theorem accepts_module {d : ModuleDeclaration} (hat : s.atModule = true)
    (hread : Accepts n (.declaration s.current.span false .statement d) s s') :
    Accepts (n + 1) (.statement (.module d)) s s' := by
  have hmodule : moduleOf n s.current.span false .statement s = .ok (d, s') := hread
  rw [Accepts, statementOf_module hat, hmodule]
  rfl

/-- The parser accepts a run of code as a statement. -/
theorem accepts_code {final : Span} {modules : List ModuleDeclaration}
    (himport : s.atImport = false) (hexport : s.atKeyword .«export» = false)
    (hmodule : s.atModule = false)
    (hcode : Accepts n (.code .statement true 0 s.current.span final modules) s s') :
    Accepts (n + 1) (.statement (.code (.mk (s.current.span.cover final) modules))) s s' := by
  have hread : codeFrom n .statement true 0 s.current.span s = .ok ((final, modules), s') := hcode
  rw [Accepts, statementOf_code himport hexport hmodule, hread]
  rfl

/-- The parser accepts an exported module declaration. -/
theorem accepts_exportModule {start : Span} {d : ModuleDeclaration} (hat : s.atModule = true)
    (hread : Accepts n (.declaration start true .statement d) s s') :
    Accepts (n + 1) (.exported start (.module d)) s s' := by
  have hmodule : moduleOf n start true .statement s = .ok (d, s') := hread
  rw [Accepts, exportOf_module hat, hmodule]
  rfl

/-- The parser accepts a default export of code. -/
theorem accepts_exportDefault {start final : Span} {modules : List ModuleDeclaration}
    (hkind : s.kind = .keyword .«default»)
    (hcode : Accepts n (.code (defaultEnd s.advance) true 0 s.advance.current.span final modules)
      s.advance s') :
    Accepts (n + 1) (.exported start (.exportDefault (s.advance.declaredName?.getD defaultLocal)
      (.mk (s.advance.current.span.cover final) modules)
      (start.cover (s.advance.current.span.cover final)))) s s' := by
  have hread : codeFrom n (defaultEnd s.advance) true 0 s.advance.current.span s.advance =
      .ok ((final, modules), s') := hcode
  rw [Accepts, exportOf_eq (atModule_eq_false (by simp [hkind])), if_neg (by simp [hkind]),
    if_neg (by simp [hkind]), if_pos hkind, hread]
  rfl

/-- The parser accepts an exported declaration that binds names. -/
theorem accepts_exportDeclaration {start final : Span} {codeEnd : CodeEnd}
    {modules : List ModuleDeclaration} (hmodule : s.atModule = false)
    (hend : declarationEnd? s.kind = some codeEnd) (hnames : declaredNames s s' ≠ [])
    (hcode : Accepts n (.code codeEnd true 0 s.current.span final modules) s s') :
    Accepts (n + 2) (.exported start (.exportDeclaration (declaredNames s s')
      (.mk (s.current.span.cover final) modules) (start.cover (s.current.span.cover final))))
      s s' := by
  have hread : codeFrom n codeEnd true 0 s.current.span s = .ok ((final, modules), s') := hcode
  have hkind : ∀ k, declarationEnd? k = none → s.kind ≠ k := by
    rintro k hk rfl
    rw [hk] at hend
    cases hend
  rw [Accepts, exportOf_eq hmodule, if_neg (hkind .star rfl), if_neg (hkind .leftBrace rfl),
    if_neg (hkind (.keyword .«default») rfl), hend]
  show exportedDeclaration (n + 1) codeEnd start s = _
  rw [exportedDeclaration, hread]
  show (if (declaredNames s s').isEmpty then _ else _) = _
  rw [if_neg (by simpa using hnames)]
  rfl

/-- The parser accepts a module declaration with a body between its braces. -/
theorem accepts_declaration {start : Span} {exported : Bool} {placement : Placement}
    {name : Option String} {body : List Statement} (hname : moduleName s.advance = (name, s₁))
    (hopen : s₁.kind = .leftBrace) (hbody : Accepts n (.statements body) s₁.advance s')
    (hclose : s'.kind = .rightBrace) :
    Accepts (n + 1) (.declaration start exported placement (.mk name exported placement body
      (start.cover s'.current.span) ⟨s₁.current.span.stop, s'.current.span.start⟩))
      s s'.advance := by
  have hread : bodyOf n true s₁.advance = .ok (body, s') := by
    rw [Accepts, decide_eq_true hclose] at hbody
    exact hbody
  rw [Accepts, moduleOf_eq, hname]
  show s₁.expect .leftBrace >>= _ = _
  rw [expect, if_pos hopen]
  show bodyOf n true s₁.advance >>= _ = _
  rw [hread]
  show s'.expect .rightBrace >>= _ = _
  rw [expect, if_pos hclose]
  rfl

/-- The parser ends code in front of a bracket that closes one around it. -/
theorem accepts_codeAtClose {codeEnd : CodeEnd} {last : Span}
    (hkind : s.kind.isCloseBracket = true) :
    Accepts (n + 1) (.code codeEnd false 0 last last []) s s := by
  have hne : ∀ k : Token.Kind, k.isCloseBracket = false → s.kind ≠ k := by
    rintro k hk rfl
    rw [hk] at hkind
    cases hkind
  rw [Accepts, codeFrom_eq _ _ _ _ _ (hne .endOfInput rfl) (fun fault => hne (.invalid fault) rfl),
    if_neg (fun h => hne .semicolon rfl h.2), if_pos ⟨rfl, hkind⟩]
  rfl

/-- The parser ends code in front of a statement. -/
theorem accepts_codeAtStatement {codeEnd : CodeEnd} {last : Span} (hat : startsHere s = true) :
    Accepts (n + 1) (.code codeEnd false 0 last last []) s s := by
  have hstatement : onStatement false 0 s = true := onStatement_iff.2 ⟨rfl, rfl, hat⟩
  have hmodule : onModule false 0 s = false := by simp [onModule, hstatement]
  have hkind := kind_of_startsHere hat
  rw [Accepts, codeFrom_eq _ _ _ _ _ ?_ ?_, if_neg ?_, if_neg ?_, hmodule, hstatement]
  · rfl
  all_goals rcases hkind with hkind | hkind | hkind <;> simp [hkind, Token.Kind.isCloseBracket]

/-- The parser ends the code of a declaration behind its last brace. -/
theorem accepts_codeAtDeclaration {isFirst : Bool} {last : Span} (hkind : s.kind = .rightBrace) :
    Accepts (n + 1) (.code .declaration isFirst 1 last s.current.span []) s s.advance := by
  rw [Accepts, codeFrom_eq _ _ _ _ _ (by simp [hkind]) (by simp [hkind]), if_neg (by simp),
    if_neg (by simp), onModule_eq_false (by simp [hkind]), onStatement_eq_false (by simp)]
  simp [hkind]

/-- The parser accepts code that starts with a module. -/
theorem accepts_codeModule {codeEnd : CodeEnd} {isFirst : Bool} {depth : Nat} {last final : Span}
    {d : ModuleDeclaration} {modules : List ModuleDeclaration}
    (hat : onModule isFirst depth s = true)
    (hmodule : Accepts n (.declaration s.current.span false .nested d) s s₁)
    (hcode : Accepts n (.code codeEnd false depth d.span final modules) s₁ s') :
    Accepts (n + 1) (.code codeEnd isFirst depth last final (d :: modules)) s s' := by
  have hkind := kind_of_onModule hat
  have hread : moduleOf n s.current.span false .nested s = .ok (d, s₁) := hmodule
  have hread' : codeFrom n codeEnd false depth d.span s₁ = .ok ((final, modules), s') := hcode
  rw [Accepts, codeFrom_eq _ _ _ _ _ (by simp [hkind]) (by simp [hkind]),
    if_neg (by simp [hkind]), if_neg (by simp [hkind, Token.Kind.isCloseBracket]), if_pos hat,
    hread]
  show codeFrom n codeEnd false depth d.span s₁ >>= _ = _
  rw [hread']
  rfl

/-- The parser accepts code that starts with a token. -/
theorem accepts_codeToken {codeEnd : CodeEnd} {isFirst : Bool} {depth : Nat} {last final : Span}
    {modules : List ModuleDeclaration} (hgoes : GoesOn codeEnd isFirst depth s)
    (hcode : Accepts n (.code codeEnd false (depthAfter s.kind depth) s.current.span final modules)
      s.advance s') :
    Accepts (n + 1) (.code codeEnd isFirst depth last final modules) s s' := by
  have hread : codeFrom n codeEnd false (depthAfter s.kind depth) s.current.span s.advance =
      .ok ((final, modules), s') := hcode
  rw [Accepts, codeFrom_eq _ _ _ _ _ hgoes.unfinished hgoes.valid, if_neg hgoes.semicolon,
    if_neg hgoes.close, hgoes.module, hgoes.statement, if_neg hgoes.declaration, hread]
  rfl

end Completeness

end Parser

/-- What the parser accepts is a phrase. -/
theorem Reads.of_accepts {n : Nat} {phrase : Phrase} {s s' : TokenStream}
    (h : Accepts n phrase s s') : Reads phrase s s' := by
  induction n using Nat.strongRecOn generalizing phrase s s' with
  | ind n ih =>
      cases n with
      | zero => cases phrase <;> cases h
      | succ n =>
          have ih : ∀ {m : Nat} {phrase : Phrase} {s s' : TokenStream}, m ≤ n →
              Accepts m phrase s s' → Reads phrase s s' := fun hm => ih _ (Nat.lt_succ_of_le hm)
          cases phrase with
          | statements body => exact reads_statements ih h
          | statement statement => exact reads_statement ih h
          | exported start statement => exact reads_exported ih h
          | declaration start exported placement d => exact reads_declaration ih h
          | code codeEnd isFirst depth last final modules => exact reads_code ih h

/-- The name of a module leads forward. -/
theorem follows_moduleName {name : Option String} {s s' : TokenStream}
    (h : moduleName s = (name, s')) : s'.Follows s := by
  unfold moduleName at h
  cases hname : identifier? s.kind with
  | none =>
      rw [hname] at h
      cases h
      exact .refl s
  | some name =>
      rw [hname] at h
      cases h
      exact follows_advance s

namespace Reads

variable {phrase : Phrase} {s s' : TokenStream}

/-- What is read leads forward. -/
theorem follows (h : Reads phrase s s') : s'.Follows s := by
  induction h with
  | nil => exact .refl _
  | semicolon _ _ ih => exact ih.of_advance
  | cons _ _ _ _ ihStatement ihBody => exact ihBody.trans ihStatement
  | importFrom _ hread => exact (follows_importDeclaration hread).of_advance
  | exportStatement _ _ ih => exact ih.of_advance
  | module _ _ ih => exact ih
  | code _ _ _ _ ih => exact ih
  | exportModule _ _ ih => exact ih
  | exportAll _ hread => exact (follows_exportAllClause hread).of_advance
  | exportNames _ hread => exact (follows_exportNamesClause hread).of_advance
  | exportDefault _ _ ih => exact ih.of_advance
  | exportDeclaration _ _ _ _ ih => exact ih
  | declaration hname _ _ _ ih =>
      exact (follows_advance _).trans
        (ih.of_advance.trans (follows_moduleName hname).of_advance)
  | codeAtEnd => exact .refl _
  | codeAtSemicolon => exact follows_advance _
  | codeAtClose => exact .refl _
  | codeAtStatement => exact .refl _
  | codeAtDeclaration => exact follows_advance _
  | codeModule _ _ _ ihModule ihCode => exact ihCode.trans ihModule
  | codeToken _ _ ih => exact ih.of_advance

/-- A module declaration leads forward from behind its first token. -/
theorem declaration_follows {start : Span} {exported : Bool} {placement : Placement}
    {d : ModuleDeclaration} (h : Reads (.declaration start exported placement d) s s') :
    s'.Follows s.advance := by
  cases h with
  | declaration hname _ hbody _ =>
      exact (follows_advance _).trans
        (hbody.follows.of_advance.trans (follows_moduleName hname))

/-- The first token of a run of code belongs to it. -/
theorem code_follows {codeEnd : CodeEnd} {depth : Nat} {last final : Span}
    {modules : List ModuleDeclaration}
    (h : Reads (.code codeEnd true depth last final modules) s s')
    (hend : s.kind ≠ .endOfInput) : s'.Follows s.advance := by
  cases h with
  | codeAtEnd hkind => exact absurd hkind hend
  | codeAtSemicolon => exact .refl _
  | codeAtDeclaration => exact .refl _
  | codeModule _ hmodule hcode => exact hcode.follows.trans hmodule.declaration_follows
  | codeToken _ hcode => exact hcode.follows

/-- A statement has a first token. -/
theorem statement_follows {statement : Statement} (h : Reads (.statement statement) s s')
    (hend : s.kind ≠ .endOfInput) : s'.Follows s.advance := by
  cases h with
  | importFrom _ hread => exact follows_importDeclaration hread
  | exportStatement _ hread => exact hread.follows
  | module _ hread => exact hread.declaration_follows
  | code _ _ _ hcode => exact hcode.code_follows hend

/-- No run of code starts with the closing brace of its body. -/
theorem code_kind_ne {codeEnd : CodeEnd} {last final : Span} {modules : List ModuleDeclaration}
    (h : Reads (.code codeEnd true 0 last final modules) s s') : s.kind ≠ .rightBrace := by
  intro hkind
  cases h with
  | codeAtEnd hend => simp [hend] at hkind
  | codeAtSemicolon hsemicolon => simp [hsemicolon] at hkind
  | codeModule hat _ _ => simp [kind_of_onModule hat] at hkind
  | codeToken hgoes _ => exact hgoes.close ⟨rfl, by rw [hkind]; rfl⟩

/-- No statement starts with the closing brace of its body. -/
theorem statement_kind_ne {statement : Statement} (h : Reads (.statement statement) s s') :
    s.kind ≠ .rightBrace := by
  cases h with
  | importFrom hat _ => simp [kind_of_atImport hat]
  | exportStatement hat _ => simp [atKeyword_iff.1 hat]
  | module hat _ => simp [kind_of_atModule hat]
  | code _ _ _ hcode => exact hcode.code_kind_ne

end Reads

/-- A budget that suffices for a phrase of `m` tokens. -/
def Phrase.budget (m : Nat) : Phrase → Nat
  | .statements _ => 4 * m + 3
  | .statement _ => 4 * m + 2
  | .exported .. => 4 * m + 3
  | .declaration .. => 4 * m
  | .code .. => 4 * m + 1

/-- The parser accepts a phrase with every budget that suffices for its tokens. Each step of it
takes one call of the budget; what it reads leaves fewer tokens, whose calls are left. -/
theorem Reads.accepts {phrase : Phrase} {s s' : TokenStream} (h : Reads phrase s s')
    (hs : s.Closed) {n : Nat} (hn : phrase.budget (s.ahead.length - s'.ahead.length) ≤ n) :
    Accepts n phrase s s' := by
  induction h generalizing n with
  | nil hkind =>
      obtain ⟨n, rfl⟩ : ∃ n', n = n' + 1 := ⟨n - 1, by simp only [Phrase.budget] at hn; omega⟩
      exact accepts_nil hkind
  | semicolon hkind hbody ih =>
      simp only [Phrase.budget] at hn ih
      obtain ⟨n, rfl⟩ : ∃ n', n = n' + 1 := ⟨n - 1, by omega⟩
      have hlength := hs.length_advance (by simp [hkind])
      have hlength' := hbody.follows.length_le
      exact accepts_semicolon hkind (ih (hs.of_follows (follows_advance _)) (by omega))
  | cons hend hsemicolon hstatement hbody ihStatement ihBody =>
      simp only [Phrase.budget] at hn ihStatement ihBody
      obtain ⟨n, rfl⟩ : ∃ n', n = n' + 1 := ⟨n - 1, by omega⟩
      have hlength := hs.length_advance hend
      have hlength₁ := (hstatement.statement_follows hend).length_le
      have hlength' := hbody.follows.length_le
      exact accepts_cons hend hstatement.statement_kind_ne hsemicolon (ihStatement hs (by omega))
        (ihBody (hs.of_follows hstatement.follows) (by omega))
  | importFrom hat hread =>
      simp only [Phrase.budget] at hn
      obtain ⟨n, rfl⟩ : ∃ n', n = n' + 1 := ⟨n - 1, by omega⟩
      rw [Accepts, statementOf_import hat]
      exact importDeclaration_budget hread hs (by omega)
  | exportStatement hat hread ih =>
      simp only [Phrase.budget] at hn ih
      obtain ⟨n, rfl⟩ : ∃ n', n = n' + 1 := ⟨n - 1, by omega⟩
      have hlength := hs.length_advance (by simp [atKeyword_iff.1 hat])
      have hlength' := hread.follows.length_le
      rw [Accepts, statementOf_export hat]
      exact ih (hs.of_follows (follows_advance _)) (by omega)
  | module hat hread ih =>
      simp only [Phrase.budget] at hn ih
      obtain ⟨n, rfl⟩ : ∃ n', n = n' + 1 := ⟨n - 1, by omega⟩
      exact accepts_module hat (ih hs (by omega))
  | code himport hexport hmodule hcode ih =>
      simp only [Phrase.budget] at hn ih
      obtain ⟨n, rfl⟩ : ∃ n', n = n' + 1 := ⟨n - 1, by omega⟩
      exact accepts_code himport hexport hmodule (ih hs (by omega))
  | exportModule hat hread ih =>
      simp only [Phrase.budget] at hn ih
      obtain ⟨n, rfl⟩ : ∃ n', n = n' + 1 := ⟨n - 1, by omega⟩
      exact accepts_exportModule hat (ih hs (by omega))
  | exportAll hkind hread =>
      simp only [Phrase.budget] at hn
      obtain ⟨n, rfl⟩ : ∃ n', n = n' + 1 := ⟨n - 1, by omega⟩
      rw [Accepts, exportOf_eq (atModule_eq_false (by simp [hkind])), if_pos hkind, hread]
  | exportNames hkind hread =>
      simp only [Phrase.budget] at hn
      obtain ⟨n, rfl⟩ : ∃ n', n = n' + 1 := ⟨n - 1, by omega⟩
      have hlength := hs.length_advance (by simp [hkind])
      rw [Accepts, exportOf_eq (atModule_eq_false (by simp [hkind])), if_neg (by simp [hkind]),
        if_pos hkind]
      exact exportNamesClause_budget hread (hs.of_follows (follows_advance _)) (by omega)
  | @exportDefault start s s' final modules hkind hcode ih =>
      simp only [Phrase.budget] at hn ih
      obtain ⟨n, rfl⟩ : ∃ n', n = n' + 1 := ⟨n - 1, by omega⟩
      have hlength := (follows_advance s).length_le
      exact accepts_exportDefault hkind (ih (hs.of_follows (follows_advance s)) (by omega))
  | exportDeclaration hmodule hend hcode hnames ih =>
      simp only [Phrase.budget] at hn ih
      -- two readers are called here, the second one at the same token
      obtain ⟨n, rfl⟩ : ∃ n', n = n' + 2 := ⟨n - 2, by omega⟩
      exact accepts_exportDeclaration hmodule hend hnames (ih hs (by omega))
  | @declaration start exported placement s s₁ s' name body hname hopen hbody hclose ih =>
      simp only [Phrase.budget] at hn ih
      have hs₁ : s₁.Follows s := (follows_moduleName hname).of_advance
      have hfollows₁ := hs₁.length_le
      have hlength₁ := (hs.of_follows hs₁).length_advance (by simp [hopen])
      -- the word and both braces are outside of the body, and pay for the calls around it
      have hclosed := hs.of_follows (follows_advance s₁ |>.trans hs₁)
      have hlength' := hbody.follows.length_le
      have hlength := (hclosed.of_follows hbody.follows).length_advance (by simp [hclose])
      obtain ⟨n, rfl⟩ : ∃ n', n = n' + 1 := ⟨n - 1, by omega⟩
      exact accepts_declaration hname hopen (ih hclosed (by omega)) hclose
  | codeAtEnd hkind =>
      obtain ⟨n, rfl⟩ : ∃ n', n = n' + 1 := ⟨n - 1, by simp only [Phrase.budget] at hn; omega⟩
      rw [Accepts, codeFrom_endOfInput _ _ _ _ _ hkind, if_pos rfl]
  | codeAtSemicolon hkind =>
      obtain ⟨n, rfl⟩ : ∃ n', n = n' + 1 := ⟨n - 1, by simp only [Phrase.budget] at hn; omega⟩
      rw [Accepts, codeFrom_eq _ _ _ _ _ (by simp [hkind]) (by simp [hkind]), if_pos ⟨rfl, hkind⟩]
  | codeAtClose hkind =>
      obtain ⟨n, rfl⟩ : ∃ n', n = n' + 1 := ⟨n - 1, by simp only [Phrase.budget] at hn; omega⟩
      exact accepts_codeAtClose hkind
  | codeAtStatement hat =>
      obtain ⟨n, rfl⟩ : ∃ n', n = n' + 1 := ⟨n - 1, by simp only [Phrase.budget] at hn; omega⟩
      exact accepts_codeAtStatement hat
  | codeAtDeclaration hkind =>
      obtain ⟨n, rfl⟩ : ∃ n', n = n' + 1 := ⟨n - 1, by simp only [Phrase.budget] at hn; omega⟩
      exact accepts_codeAtDeclaration hkind
  | codeModule hat hmodule hcode ihModule ihCode =>
      simp only [Phrase.budget] at hn ihModule ihCode
      obtain ⟨n, rfl⟩ : ∃ n', n = n' + 1 := ⟨n - 1, by omega⟩
      have hlength := hs.length_advance (by simp [kind_of_onModule hat])
      have hlength₁ := hmodule.declaration_follows.length_le
      have hlength' := hcode.follows.length_le
      exact accepts_codeModule hat (ihModule hs (by omega))
        (ihCode (hs.of_follows hmodule.follows) (by omega))
  | codeToken hgoes hcode ih =>
      simp only [Phrase.budget] at hn ih
      obtain ⟨n, rfl⟩ : ∃ n', n = n' + 1 := ⟨n - 1, by omega⟩
      have hlength := hs.length_advance hgoes.unfinished
      have hlength' := hcode.follows.length_le
      exact accepts_codeToken hgoes (ih (hs.of_follows (follows_advance _)) (by omega))

/-! ## Source texts -/

/-- The tokens from the first place on are all tokens. -/
theorem TokenStream.toList_ofTokens {tokens : List Token} (h : tokens ≠ []) :
    (ofTokens tokens).toList = tokens := by
  cases tokens with
  | nil => exact absurd rfl h
  | cons t ts => rfl

/-- Every text has a token, if only the end of the input. -/
theorem ofChars_ne_nil (text : List Char) : Token.ofChars text ≠ [] := by
  obtain ⟨before, last, htokens, -, -⟩ := Token.exists_tokensFrom_eq false ⟨0, text⟩
  simp [Token.ofChars, htokens]

/-- The tokens of a text end with the end of the input. -/
theorem closed_ofChars (text : List Char) : (ofTokens (Token.ofChars text)).Closed := by
  obtain ⟨before, last, htokens, hlast, -⟩ := Token.exists_tokensFrom_eq false ⟨0, text⟩
  refine ⟨before, last, ?_, hlast⟩
  rw [Token.ofChars, htokens, toList_ofTokens (by simp)]

/-- A text is parsed as the statements that its tokens read as, up to the end of the input. -/
theorem SyntaxTree.parse_eq_ok {text : List Char} {tree : SyntaxTree} :
    parse text = .ok tree ↔ tree.text = text ∧
      ∃ s', s'.kind = .endOfInput ∧
        Reads (.statements tree.body) (ofTokens (Token.ofChars text)) s' := by
  rw [parse, bodyOfTokens]
  constructor
  · intro h
    cases hbody : bodyOf (4 * (Token.ofChars text).length + 4) false
        (ofTokens (Token.ofChars text)) with
    | error fault =>
        rw [hbody] at h
        cases h
    | ok r =>
        obtain ⟨body, s'⟩ := r
        rw [hbody] at h
        cases h
        have hkind : s'.kind = .endOfInput := bodyOf_kind hbody
        refine ⟨rfl, s', hkind, Reads.of_accepts (n := 4 * (Token.ofChars text).length + 4) ?_⟩
        rw [Accepts, hkind]
        exact hbody
  · rintro ⟨rfl, s', hkind, hread⟩
    have hlength : (ofTokens (Token.ofChars tree.text)).ahead.length ≤
        (Token.ofChars tree.text).length := by
      cases Token.ofChars tree.text <;> simp [ofTokens]
    have haccepts := hread.accepts (closed_ofChars tree.text)
      (n := 4 * (Token.ofChars tree.text).length + 4) (by rw [Phrase.budget]; omega)
    rw [Accepts, hkind] at haccepts
    have hbody : bodyOf (4 * (Token.ofChars tree.text).length + 4) false
        (ofTokens (Token.ofChars tree.text)) = .ok (tree.body, s') := haccepts
    rw [hbody]
    rfl

/-- Behind a source text there is nothing but the end of the input. -/
theorem toList_of_endOfInput {text : List Char} {s : TokenStream}
    (h : s.Follows (ofTokens (Token.ofChars text))) (hkind : s.kind = .endOfInput) :
    s.toList = [s.current] := by
  obtain ⟨read, hread⟩ := h
  obtain ⟨before, last, htokens, -, hbefore⟩ := Token.exists_tokensFrom_eq false ⟨0, text⟩
  rw [toList_ofTokens (ofChars_ne_nil text), Token.ofChars, htokens] at hread
  have hsplit : before ++ [last] = read ++ s.current :: s.ahead := hread.symm
  obtain ⟨mid, rfl, -⟩ | ⟨pre, -, hlast⟩ := exists_of_append_eq hsplit
  · exact absurd hkind (hbefore s.current (by simp))
  · cases pre with
    | nil =>
        rw [toList, ← (List.cons.inj hlast).2]
    | cons u pre => simp at hlast

/-- A text is parsed to the body of its tokens. -/
theorem SyntaxTree.parse_of_tokens {text : List Char} {tokens : List Token} {body : List Statement}
    (htokens : Token.ofChars text = tokens) (hbody : bodyOfTokens tokens = .ok body) :
    parse text = .ok ⟨text, body⟩ := by
  rw [parse, htokens, hbody]

end ModuleGraph
