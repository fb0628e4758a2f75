import ModuleGraph.Proofs.Grammar

/-!
# How the parser fails

`SyntaxTree.parse_cause_ne_budgetSpent` is the main statement: no text is too long, or nested too
deeply, for the budget that the parser starts with.

The readers of clauses report a fault at a token that they have come to, and are short of budget
only if they have read as many tokens as it allows (`Parser.Reports`). The readers of bodies fail
step by step, as `Parser.Fails` says, so that a property of their faults is shown by one induction.
Each token is worth four recursive calls (`Parser.Reading.budget`), of which no step on it takes
more than one.
-/

namespace ModuleGraph

open TokenStream

/-- The fault of an unexpected token is not a matter of budget. -/
theorem TokenStream.unexpected_cause_ne (expectation : Expectation) (s : TokenStream) :
    (s.unexpected expectation).cause ≠ .budgetSpent := by
  unfold unexpected
  split <;> simp

namespace Parser

/-! ## Faults of clauses -/

/-- A reader that was at `s` stops with a fault at `s'`. It is short of budget only if it has read
`n` tokens between them. -/
structure StopsAt (n : Nat) (s s' : TokenStream) (fault : SyntaxFault) : Prop where
  follows : s'.Follows s
  span : fault.span = s'.current.span
  spent : s.Closed → fault.cause = .budgetSpent → s'.ahead.length + n ≤ s.ahead.length

section StopsAt

variable {n m : Nat} {s s₁ s' : TokenStream} {fault : SyntaxFault}

/-- A fault at the current token that is not a matter of budget. -/
theorem StopsAt.here (hspan : fault.span = s.current.span) (hcause : fault.cause ≠ .budgetSpent) :
    StopsAt n s s fault :=
  ⟨.refl s, hspan, fun _ hspent => absurd hspent hcause⟩

/-- A reader that stops behind a place stops before it, too. -/
theorem StopsAt.of_follows (h : StopsAt n s₁ s' fault) (hs : s₁.Follows s) :
    StopsAt n s s' fault where
  follows := h.follows.trans hs
  span := h.span
  spent hclosed hcause :=
    Nat.le_trans (h.spent (hclosed.of_follows hs) hcause) hs.length_le

/-- Who has read many tokens has read few. -/
theorem StopsAt.mono (h : StopsAt n s s' fault) (hle : m ≤ n) : StopsAt m s s' fault where
  follows := h.follows
  span := h.span
  spent hclosed hcause :=
    Nat.le_trans (Nat.add_le_add_left hle _) (h.spent hclosed hcause)

/-- One token more has been read when a reader stops behind it. -/
theorem StopsAt.of_advance (h : StopsAt n s.advance s' fault) (hend : s.kind ≠ .endOfInput) :
    StopsAt (n + 1) s s' fault where
  follows := h.follows.of_advance
  span := h.span
  spent hclosed hcause := by
    have hspent := h.spent (hclosed.of_follows (follows_advance s)) hcause
    have hlength := hclosed.length_advance hend
    omega

end StopsAt

/-- A reader of tokens that goes forward, and whose faults are at tokens that it has come to. It is
short of budget only when it has read `n` tokens. -/
structure Reports (n : Nat) {α : Type} (f : TokenStream → Except SyntaxFault (α × TokenStream)) :
    Prop where
  follows : ∀ {s s' : TokenStream} {a : α}, f s = .ok (a, s') → s'.Follows s
  fault : ∀ {s : TokenStream} {fault : SyntaxFault}, f s = .error fault →
    ∃ s', StopsAt n s s' fault

namespace Reports

variable {n m : Nat} {α β : Type} {f : TokenStream → Except SyntaxFault (α × TokenStream)}

/-- A reader that reads nothing has no fault to report. -/
theorem pure (a : α) : Reports n fun s => .ok (a, s) where
  follows h := by cases h; exact .refl _
  fault h := by cases h

/-- A reader that always fails reports its fault where it is. -/
theorem fail (h : ∀ s, ∃ fault, f s = .error fault ∧ StopsAt n s s fault) : Reports n f where
  follows {s s' a} hs := by
    obtain ⟨fault, hfault, -⟩ := h s
    cases hfault.symm.trans hs
  fault {s fault} hs := by
    obtain ⟨fault', hfault, hstops⟩ := h s
    cases hfault.symm.trans hs
    exact ⟨s, hstops⟩

/-- A reader that reports faults may be followed by another one. -/
theorem bind {g : α → TokenStream → Except SyntaxFault (β × TokenStream)} (hf : Reports n f)
    (hg : ∀ a, Reports n (g a)) : Reports n fun s => f s >>= fun r => g r.1 r.2 where
  follows h := by
    obtain ⟨⟨a, s'⟩, hread, h⟩ := Except.bind_eq_ok h
    exact ((hg a).follows h).trans (hf.follows hread)
  fault h := by
    rcases Except.bind_eq_error h with h | ⟨⟨a, s'⟩, hread, h⟩
    · exact hf.fault h
    · obtain ⟨s'', hstops⟩ := (hg a).fault h
      exact ⟨s'', hstops.of_follows (hf.follows hread)⟩

/-- The reader of one token reports a fault at this token. -/
theorem accept {read? : Token.Kind → Option α} (expectation : Expectation) :
    Reports n (accept read? expectation) where
  follows h := by
    obtain ⟨-, rfl⟩ := accept_eq_ok h
    exact follows_advance _
  fault {s fault} h := by
    unfold TokenStream.accept at h
    split at h <;> cases h
    exact ⟨s, .here (unexpected_span expectation s) (unexpected_cause_ne expectation s)⟩

/-- Reading on behind a token that stands for something, or with another reader at any other. -/
theorem token {f : β → TokenStream → Except SyntaxFault (α × TokenStream)}
    {g : TokenStream → Except SyntaxFault (α × TokenStream)} {read? : Token.Kind → Option β}
    (hf : ∀ b, Reports n (f b)) (hg : Reports n g) :
    Reports n fun s => (read? s.kind).elim (g s) fun b => f b s.advance where
  follows {s s' a} h := by
    cases hread : read? s.kind with
    | none =>
        rw [hread] at h
        exact hg.follows h
    | some b =>
        rw [hread] at h
        exact ((hf b).follows h).of_advance
  fault {s fault} h := by
    cases hread : read? s.kind with
    | none =>
        rw [hread] at h
        exact hg.fault h
    | some b =>
        rw [hread] at h
        obtain ⟨s', hstops⟩ := (hf b).fault h
        exact ⟨s', hstops.of_follows (follows_advance s)⟩

/-- A closing brace may end what `f` reads. -/
theorem close (a : α) (hf : Reports n f) :
    Reports n fun s => if s.kind = .rightBrace then .ok (a, s.advance) else f s where
  follows h := by
    split at h
    · cases h
      exact follows_advance _
    · exact hf.follows h
  fault h := by
    split at h
    · cases h
    · exact hf.fault h

/-- Attributes without a closing brace are faulty where the text ends. -/
theorem skipAttributes : Reports n fun s => s.skipAttributes.map (Prod.mk ()) where
  follows := Reader.skipAttributes.follows
  fault {s fault} h := by
    rw [skipAttributes_eq] at h
    split at h
    · split at h <;> cases h
      have hclose : (atRightBrace s.advance.advance).Follows s.advance.advance :=
        follows_toRightBrace ..
      have hstops : StopsAt n (atRightBrace s.advance.advance) (atRightBrace s.advance.advance)
          ((atRightBrace s.advance.advance).fault .unclosedAttributes) :=
        .here rfl (by simp [TokenStream.fault])
      exact ⟨_, hstops.of_follows hclose.of_advance.of_advance⟩
    · cases h

/-- Reading a default binding never fails. -/
theorem defaultBinding : Reports n fun s => .ok (Parser.defaultBinding s) where
  follows := Reader.defaultBinding.follows
  fault h := by cases h

/-- Readers that report their faults can be put together. -/
theorem compositional (n : Nat) : Compositional (@Reports n) where
  pure := .pure
  unexpected expectation := .fail fun s =>
    ⟨_, rfl, .here (unexpected_span expectation s) (unexpected_cause_ne expectation s)⟩
  bind := .bind
  accept expectation _ := .accept expectation
  token _ _ := .token
  close a _ := .close a
  skipAttributes := .skipAttributes
  defaultBinding := .defaultBinding

/-- Who is short of budget only after many tokens is so only after few. -/
theorem mono (hf : Reports n f) (hle : m ≤ n) : Reports m f where
  follows := hf.follows
  fault h := by
    obtain ⟨s', hstops⟩ := hf.fault h
    exact ⟨s', hstops.mono hle⟩

/-- Behind a token there is one token less to read. -/
theorem behind {k : Token.Kind} {g : TokenStream → Except SyntaxFault (α × TokenStream)}
    (hend : k ≠ .endOfInput) (hf : Reports n f) (hg : Reports (n + 1) g) :
    Reports (n + 1) fun s => if s.kind = k then f s.advance else g s where
  follows h := by
    split at h
    · exact (hf.follows h).of_advance
    · exact hg.follows h
  fault {s fault} h := by
    split at h
    · next hkind =>
        obtain ⟨s', hstops⟩ := hf.fault h
        exact ⟨s', hstops.of_advance (hkind ▸ hend)⟩
    · exact hg.fault h

/-- A list spends one call on each item, and an item has at least the comma behind it. -/
theorem readsLists (n : Nat) : ReadsLists n (@Reports n) := by
  intro α item _ hitem
  induction n with
  | zero =>
      exact .fail fun s => ⟨_, rfl, ⟨.refl s, rfl, fun _ _ => Nat.le_refl _⟩⟩
  | succ n ih =>
      have hlist := ih (hitem.mono (Nat.le_succ n))
      have htail : ∀ a, Reports (n + 1) fun s =>
          if s.kind = .comma then
            closedList item n s.advance >>= fun q => .ok (a :: q.1, q.2)
          else TokenStream.accept (only .rightBrace) (.token .rightBrace) s >>= fun q =>
            .ok ([a], q.2) :=
        fun a => behind (f := fun s => closedList item n s >>= fun q => .ok (a :: q.1, q.2))
          (by simp) (hlist.bind fun as => .pure (a :: as))
          ((Reports.accept _).bind fun _ => .pure [a])
      exact .close [] (hitem.bind htail)

/-- A statement whose end is missing is faulty at the token that stands there. -/
theorem ended (hf : Reports n f) (build : α → Span → Statement) (start : Span) :
    Reports n (ended f build start) := by
  have hend : ∀ a, Reports n fun s : TokenStream => s.endStatement >>= fun q =>
      .ok (build a (start.cover q.1.span), q.2) := fun a =>
    { follows := fun {s s' statement} h => by
        obtain ⟨q, hq, h⟩ := Except.bind_eq_ok h
        cases h
        exact follows_endStatement hq
      fault := fun {s fault} h => by
        rcases Except.bind_eq_error h with h | ⟨q, -, h⟩
        · rw [endStatement_eq] at h
          split at h
          · cases h
          · split at h <;> cases h
            exact ⟨s, .here (unexpected_span .semicolon s) (unexpected_cause_ne .semicolon s)⟩
        · cases h }
  exact hf.bind hend

end Reports

section Clauses

variable {n : Nat} {start : Span} {s : TokenStream} {fault : SyntaxFault}

/-- Where an import declaration is faulty. -/
theorem stopsAt_importDeclaration (h : importDeclaration n s = .error fault) :
    ∃ s', StopsAt n s s' fault := by
  have hclause := (Reports.compositional n).importClause (Reports.readsLists n)
  rw [importDeclaration_eq] at h
  obtain ⟨s', hstops⟩ := (hclause.ended _ _).fault h
  exact ⟨s', hstops.of_follows (follows_advance s)⟩

/-- Where an `export *` is faulty. It has no list, and so takes any budget. -/
theorem stopsAt_exportAllClause (n : Nat) (h : exportAllClause start s = .error fault) :
    ∃ s', StopsAt n s s' fault := by
  rw [exportAllClause_eq] at h
  exact ((Reports.compositional n).allClause.ended _ _).fault h

/-- Where an export of names in braces is faulty. -/
theorem stopsAt_exportNamesClause (h : exportNamesClause n start s = .error fault) :
    ∃ s', StopsAt n s s' fault := by
  have hclause := (Reports.compositional n).namesClause (Reports.readsLists n)
  rw [exportNamesClause_eq] at h
  exact (hclause.ended _ _).fault h

end Clauses

/-! ## Faults of bodies -/

/-- What a reader of the parser is asked for. -/
inductive Reading where
  | body (inBraces : Bool)
  | statement
  | exported (start : Span)
  | exportedDeclaration (codeEnd : CodeEnd) (start : Span)
  | declaration (start : Span) (exported : Bool) (placement : Placement)
  | code (codeEnd : CodeEnd) (isFirst : Bool) (depth : Nat) (last : Span)

/-- With the budget `n` a reader of the parser fails. -/
def Rejects (n : Nat) (fault : SyntaxFault) : Reading → TokenStream → Prop
  | .body inBraces, s => bodyOf n inBraces s = .error fault
  | .statement, s => statementOf n s = .error fault
  | .exported start, s => exportOf n start s = .error fault
  | .exportedDeclaration codeEnd start, s => exportedDeclaration n codeEnd start s = .error fault
  | .declaration start exported placement, s => moduleOf n start exported placement s = .error fault
  | .code codeEnd isFirst depth last, s => codeFrom n codeEnd isFirst depth last s = .error fault

/-- The steps by which a reader comes to a fault: it has no budget left, stops at a token, or calls
another reader that fails. -/
inductive Fails : Nat → Reading → TokenStream → SyntaxFault → Prop where
  | spent {r : Reading} {s : TokenStream} : Fails 0 r s (s.fault .budgetSpent)
  | stops {n : Nat} {r : Reading} {s s' : TokenStream} {fault : SyntaxFault}
      (hstops : StopsAt n s s' fault) : Fails (n + 1) r s fault
  -- the statements of a body
  | bodySemicolon {n : Nat} {inBraces : Bool} {s : TokenStream} {fault : SyntaxFault}
      (hkind : s.kind = .semicolon) (hbody : Fails n (.body inBraces) s.advance fault) :
      Fails (n + 1) (.body inBraces) s fault
  | bodyStatement {n : Nat} {inBraces : Bool} {s : TokenStream} {fault : SyntaxFault}
      (hstatement : Fails n .statement s fault) : Fails (n + 1) (.body inBraces) s fault
  | bodyRest {n : Nat} {inBraces : Bool} {s s₁ : TokenStream} {fault : SyntaxFault}
      {statement : Statement} (hend : s.kind ≠ .endOfInput)
      (hread : Reads (.statement statement) s s₁) (hbody : Fails n (.body inBraces) s₁ fault) :
      Fails (n + 1) (.body inBraces) s fault
  -- one statement
  | exportStatement {n : Nat} {s : TokenStream} {fault : SyntaxFault}
      (hat : s.atKeyword .«export» = true)
      (hexported : Fails n (.exported s.current.span) s.advance fault) :
      Fails (n + 1) .statement s fault
  | module {n : Nat} {s : TokenStream} {fault : SyntaxFault}
      (hmodule : Fails n (.declaration s.current.span false .statement) s fault) :
      Fails (n + 1) .statement s fault
  | code {n : Nat} {s : TokenStream} {fault : SyntaxFault}
      (hcode : Fails n (.code .statement true 0 s.current.span) s fault) :
      Fails (n + 1) .statement s fault
  -- behind `export`
  | exportModule {n : Nat} {start : Span} {s : TokenStream} {fault : SyntaxFault}
      (hmodule : Fails n (.declaration start true .statement) s fault) :
      Fails (n + 1) (.exported start) s fault
  | exportDefault {n : Nat} {start : Span} {codeEnd : CodeEnd} {s : TokenStream}
      {fault : SyntaxFault}
      (hcode : Fails n (.code codeEnd true 0 s.advance.current.span) s.advance fault) :
      Fails (n + 1) (.exported start) s fault
  | exportDeclaration {n : Nat} {start : Span} {codeEnd : CodeEnd} {s : TokenStream}
      {fault : SyntaxFault} (hdeclaration : Fails n (.exportedDeclaration codeEnd start) s fault) :
      Fails (n + 1) (.exported start) s fault
  | declarationCode {n : Nat} {start : Span} {codeEnd : CodeEnd} {s : TokenStream}
      {fault : SyntaxFault} (hcode : Fails n (.code codeEnd true 0 s.current.span) s fault) :
      Fails (n + 1) (.exportedDeclaration codeEnd start) s fault
  | declaresNothing {n : Nat} {start final : Span} {codeEnd : CodeEnd} {s s' : TokenStream}
      {modules : List ModuleDeclaration}
      (hread : Reads (.code codeEnd true 0 s.current.span final modules) s s') :
      Fails (n + 1) (.exportedDeclaration codeEnd start) s
        ⟨.declaresNothing, s.current.span.cover final⟩
  -- module declarations
  | declarationBody {n : Nat} {start : Span} {exported : Bool} {placement : Placement}
      {s s₁ : TokenStream} {fault : SyntaxFault} (hfollows : s₁.Follows s)
      (hopen : s₁.kind = .leftBrace) (hbody : Fails n (.body true) s₁.advance fault) :
      Fails (n + 1) (.declaration start exported placement) s fault
  -- runs of code
  | codeModule {n : Nat} {codeEnd : CodeEnd} {isFirst : Bool} {depth : Nat} {last : Span}
      {s : TokenStream} {fault : SyntaxFault}
      (hmodule : Fails n (.declaration s.current.span false .nested) s fault) :
      Fails (n + 1) (.code codeEnd isFirst depth last) s fault
  | codeRest {n : Nat} {codeEnd : CodeEnd} {isFirst : Bool} {depth : Nat} {last : Span}
      {s s₁ : TokenStream} {fault : SyntaxFault} {d : ModuleDeclaration}
      (hend : s.kind ≠ .endOfInput)
      (hread : Reads (.declaration s.current.span false .nested d) s s₁)
      (hcode : Fails n (.code codeEnd false depth d.span) s₁ fault) :
      Fails (n + 1) (.code codeEnd isFirst depth last) s fault
  | codeToken {n : Nat} {codeEnd : CodeEnd} {isFirst : Bool} {depth depth' : Nat} {last : Span}
      {s : TokenStream} {fault : SyntaxFault} (hend : s.kind ≠ .endOfInput)
      (hcode : Fails n (.code codeEnd false depth' s.current.span) s.advance fault) :
      Fails (n + 1) (.code codeEnd isFirst depth last) s fault

namespace Fails

variable {n : Nat} {r : Reading} {s s' : TokenStream} {fault : SyntaxFault}

/-- A fault at the current token that is not a matter of budget. -/
theorem here (hspan : fault.span = s.current.span) (hcause : fault.cause ≠ .budgetSpent) :
    Fails (n + 1) r s fault :=
  .stops (.here hspan hcause)

/-- A token that is not expected here, or behind here. -/
theorem unexpected (expectation : Expectation) (h : s'.Follows s) :
    Fails (n + 1) r s (s'.unexpected expectation) :=
  .stops (StopsAt.of_follows (.here (unexpected_span expectation s')
    (unexpected_cause_ne expectation s')) h)

/-- A token that is missing here, or behind here. -/
theorem of_expect {kind : Token.Kind} (h : s'.expect kind = .error fault) (hs : s'.Follows s) :
    Fails (n + 1) r s fault := by
  unfold expect at h
  split at h <;> cases h
  exact .unexpected (.token kind) hs

variable (ih : ∀ {r : Reading} {s : TokenStream}, Rejects n fault r s → Fails n r s fault)

include ih

/-- The statements of a body fail at their end, at a statement or behind it. -/
theorem body {inBraces : Bool} (h : bodyOf (n + 1) inBraces s = .error fault) :
    Fails (n + 1) (.body inBraces) s fault := by
  rw [bodyOf] at h
  split at h
  · split at h <;> cases h
    exact .here rfl (by simp [TokenStream.fault])
  next hend =>
  split at h
  · cases h
  split at h
  · next hkind => exact .bodySemicolon hkind (ih h)
  rcases Except.bind_eq_error h with h | ⟨⟨statement, s₁⟩, hstatement, h⟩
  · exact .bodyStatement (ih h)
  have hread : Reads (.statement statement) s s₁ := .of_accepts (n := n) hstatement
  exact .bodyRest hend hread (ih (Except.bind_ok_eq_error h))

/-- A statement fails as what it is told by its first tokens to be. -/
theorem statement (h : statementOf (n + 1) s = .error fault) :
    Fails (n + 1) .statement s fault := by
  rw [statementOf] at h
  split at h
  · obtain ⟨s', hstops⟩ := stopsAt_importDeclaration h
    exact .stops hstops
  split at h
  · next hat => exact .exportStatement hat (ih h)
  split at h
  · exact .module (ih (Except.bind_ok_eq_error h))
  · exact .code (ih (Except.bind_ok_eq_error h))

/-- What is exported fails as its first token says. -/
theorem exported {start : Span} (h : exportOf (n + 1) start s = .error fault) :
    Fails (n + 1) (.exported start) s fault := by
  by_cases hat : s.atModule = true
  · rw [exportOf_module hat] at h
    exact .exportModule (ih (Except.bind_ok_eq_error h))
  rw [exportOf_eq (Bool.eq_false_iff.2 hat)] at h
  split at h
  · obtain ⟨s', hstops⟩ := stopsAt_exportAllClause n h
    exact .stops (hstops.of_follows (follows_advance s))
  split at h
  · obtain ⟨s', hstops⟩ := stopsAt_exportNamesClause h
    exact .stops (hstops.of_follows (follows_advance s))
  split at h
  · exact .exportDefault (ih (Except.bind_ok_eq_error h))
  cases hend : declarationEnd? s.kind with
  | none =>
      rw [hend] at h
      cases h
      exact .unexpected .exportClause (.refl s)
  | some codeEnd =>
      rw [hend] at h
      exact .exportDeclaration (ih h)

/-- An exported declaration fails in its code, or because it declares nothing. -/
theorem exportedCode {codeEnd : CodeEnd} {start : Span}
    (h : exportedDeclaration (n + 1) codeEnd start s = .error fault) :
    Fails (n + 1) (.exportedDeclaration codeEnd start) s fault := by
  rw [exportedDeclaration] at h
  rcases Except.bind_eq_error h with h | ⟨⟨⟨final, modules⟩, s'⟩, hcode, h⟩
  · exact .declarationCode (ih h)
  have hread : Reads (.code codeEnd true 0 s.current.span final modules) s s' :=
    .of_accepts (n := n) hcode
  change (if (declaredNames s s').isEmpty then _ else _) = _ at h
  split at h <;> cases h
  exact .declaresNothing hread

/-- A module declaration fails at one of its braces or between them. -/
theorem declaration {start : Span} {exported : Bool} {placement : Placement}
    (h : moduleOf (n + 1) start exported placement s = .error fault) :
    Fails (n + 1) (.declaration start exported placement) s fault := by
  rw [moduleOf_eq] at h
  have hname : (moduleName s.advance).2.Follows s :=
    (follows_moduleName rfl).of_advance
  rcases Except.bind_eq_error h with h | ⟨⟨opening, s₁⟩, hopen, h⟩
  · exact .of_expect h hname
  obtain ⟨hkind, -, rfl⟩ := expect_eq_ok hopen
  rcases Except.bind_eq_error h with h | ⟨⟨body, s₂⟩, hbody, h⟩
  · exact .declarationBody hname hkind (ih h)
  have hread : Reads (.statements body) (moduleName s.advance).2.advance s₂ := by
    refine .of_accepts (n := n) ?_
    rw [Accepts, bodyOf_kind hbody]
    exact hbody
  exact .of_expect (Except.bind_ok_eq_error h) (hread.follows.of_advance.trans hname)

/-- A run of code fails at a token, in a module or behind it. -/
theorem codeStep {codeEnd : CodeEnd} {isFirst : Bool} {depth : Nat} {last : Span}
    (h : codeFrom (n + 1) codeEnd isFirst depth last s = .error fault) :
    Fails (n + 1) (.code codeEnd isFirst depth last) s fault := by
  by_cases hend : s.kind = .endOfInput
  · rw [codeFrom_endOfInput n codeEnd isFirst depth last hend] at h
    split at h <;> cases h
    exact .here rfl (by simp [TokenStream.fault])
  by_cases hinvalid : ∃ fault, s.kind = .invalid fault
  · obtain ⟨lexical, hlexical⟩ := hinvalid
    rw [codeFrom_invalid n codeEnd isFirst depth last hlexical] at h
    cases h
    exact .here rfl (by simp [TokenStream.fault])
  rw [codeFrom_eq n codeEnd isFirst depth last hend fun fault h => hinvalid ⟨fault, h⟩] at h
  split at h
  · cases h
  split at h
  · split at h <;> cases h
    exact .unexpected .nothing (.refl s)
  split at h
  · rcases Except.bind_eq_error h with h | ⟨⟨d, s₁⟩, hmodule, h⟩
    · exact .codeModule (ih h)
    have hread : Reads (.declaration s.current.span false .nested d) s s₁ :=
      .of_accepts (n := n) hmodule
    exact .codeRest hend hread (ih (Except.bind_ok_eq_error h))
  split at h
  · cases h
  split at h
  · cases h
  · exact .codeToken hend (ih h)

omit ih in
/-- Every fault of the parser comes about by such steps. The induction is on the budget, which each
call of a reader takes one of. -/
theorem of_rejects (h : Rejects n fault r s) : Fails n r s fault := by
  induction n generalizing r s with
  | zero => cases r <;> cases h <;> exact .spent
  | succ n ih =>
      cases r with
      | body => exact body ih h
      | statement => exact statement ih h
      | exported => exact exported ih h
      | exportedDeclaration => exact exportedCode ih h
      | declaration => exact declaration ih h
      | code => exact codeStep ih h

end Fails

/-! ## The budget of a text -/

/-- A budget that a reader cannot spend where `m` tokens are ahead. -/
def Reading.budget (m : Nat) : Reading → Nat
  | .body _ | .exported _ => 4 * m + 5
  | .statement | .exportedDeclaration .. => 4 * m + 4
  | .code .. => 4 * m + 3
  | .declaration .. => 4 * m + 2

/-- Any such budget is more than four times the tokens. -/
theorem Reading.lt_budget (m : Nat) (r : Reading) : 4 * m + 1 < r.budget m := by
  cases r <;> simp [Reading.budget]

/-- A reader with enough budget for the tokens ahead does not fail for want of it. The induction is
on the steps of the failure: one that goes to another reader at the same token finds a smaller
budget there, and one that goes on behind a token finds four calls more than it needs. -/
theorem Fails.cause_ne {n : Nat} {r : Reading} {s : TokenStream} {fault : SyntaxFault}
    (h : Fails n r s fault) (hs : s.Closed) (hn : r.budget s.ahead.length ≤ n) :
    fault.cause ≠ .budgetSpent := by
  induction h with
  | @spent r s =>
      have hbudget := r.lt_budget s.ahead.length
      omega
  | @stops n r s s' fault hstops =>
      intro hcause
      have hbudget := r.lt_budget s.ahead.length
      have hspent := hstops.spent hs hcause
      omega
  -- another reader, at the same token
  | bodyStatement hcall ih | module hcall ih | code hcall ih | exportModule hcall ih
  | exportDeclaration hcall ih | declarationCode hcall ih | codeModule hcall ih =>
      simp only [Reading.budget] at hn ih
      exact ih hs (by omega)
  -- a reader behind the token, whose calls are left for the step to it
  | @bodySemicolon n inBraces s fault hkind hbody ih =>
      have hlength := hs.length_advance (by simp [hkind])
      simp only [Reading.budget] at hn ih
      exact ih (hs.of_follows (follows_advance s)) (by omega)
  | @bodyRest n inBraces s s₁ fault statement hend hread hbody ih =>
      have hlength := hs.length_advance hend
      have hlength₁ := (hread.statement_follows hend).length_le
      simp only [Reading.budget] at hn ih
      exact ih (hs.of_follows hread.follows) (by omega)
  | @exportStatement n s fault hat hexported ih =>
      have hlength := hs.length_advance (by simp [atKeyword_iff.1 hat])
      simp only [Reading.budget] at hn ih
      exact ih (hs.of_follows (follows_advance s)) (by omega)
  | @exportDefault n start codeEnd s fault hcode ih =>
      have hlength := (follows_advance s).length_le
      simp only [Reading.budget] at hn ih
      exact ih (hs.of_follows (follows_advance s)) (by omega)
  | declaresNothing hread => simp
  | @declarationBody n start exported placement s s₁ fault hfollows hopen hbody ih =>
      have hs₁ := hs.of_follows hfollows
      have hlength := hfollows.length_le
      have hlength₁ := hs₁.length_advance (by simp [hopen])
      simp only [Reading.budget] at hn ih
      exact ih (hs₁.of_follows (follows_advance s₁)) (by omega)
  | @codeRest n codeEnd isFirst depth last s s₁ fault d hend hread hcode ih =>
      have hlength := hs.length_advance hend
      have hlength₁ := hread.declaration_follows.length_le
      simp only [Reading.budget] at hn ih
      exact ih (hs.of_follows hread.follows) (by omega)
  | @codeToken n codeEnd isFirst depth depth' last s fault hend hcode ih =>
      have hlength := hs.length_advance hend
      simp only [Reading.budget] at hn ih
      exact ih (hs.of_follows (follows_advance s)) (by omega)

end Parser

open ModuleGraph.Parser

namespace SyntaxTree

/-- A text that is not parsed has tokens that are no statements. -/
theorem parse_eq_error {text : List Char} {e : SyntaxError} (h : parse text = .error e) :
    ∃ fault, bodyOfTokens (Token.ofChars text) = .error fault ∧ e = .ofFault text fault := by
  unfold parse at h
  split at h <;> cases h
  exact ⟨_, ‹_›, rfl⟩

/-- Tokens that are no statements make the reader of a body fail. -/
theorem fails_of_bodyOfTokens {tokens : List Token} {fault : SyntaxFault}
    (h : bodyOfTokens tokens = .error fault) :
    Fails (4 * tokens.length + 4) (.body false) (ofTokens tokens) fault := by
  refine .of_rejects ?_
  rw [bodyOfTokens] at h
  cases hbody : bodyOf (4 * tokens.length + 4) false (ofTokens tokens) with
  | ok r =>
      rw [hbody] at h
      cases h
  | error fault' =>
      rw [hbody] at h
      cases h
      exact hbody

/-- Whatever a text is, parsing it never fails for want of budget: the one that it starts with
exceeds the calls that its tokens are worth. -/
theorem parse_cause_ne_budgetSpent {text : List Char} {e : SyntaxError}
    (h : parse text = .error e) : e.cause ≠ .budgetSpent := by
  obtain ⟨fault, hfault, rfl⟩ := parse_eq_error h
  have hlength : (ofTokens (Token.ofChars text)).ahead.length + 1 =
      (Token.ofChars text).length := by
    rw [← congrArg List.length (toList_ofTokens (ofChars_ne_nil text)), toList, List.length_cons]
  have hcause : fault.cause ≠ .budgetSpent :=
    (fails_of_bodyOfTokens hfault).cause_ne (closed_ofChars text)
      (by simp only [Reading.budget]; omega)
  exact hcause

end SyntaxTree

end ModuleGraph
