import ModuleGraph.Proofs.Enclosures

/-!
# Import and export clauses

The readers of import and export clauses are made of readers of single tokens. A property of readers
that is kept where readers are put together is one of all of them (`Compositional`). Such a property
is going forward and reading the same between braces and alone (`Reader`). The readers of lists
accept with every budget that is more than the tokens they read.
-/

namespace ModuleGraph

open TokenStream

/-- A reader of tokens that goes forward, and that reads the same between braces, as long as it
stays there, and alone. -/
structure Reader {α : Type} (f : TokenStream → Except SyntaxFault (α × TokenStream)) : Prop where
  follows : ∀ {s s' : TokenStream} {a : α}, f s = .ok (a, s') → s'.Follows s
  alone : ∀ {e : Enclosure} {s s₀ s' : TokenStream} {a : α}, e.Pairs s s₀ → s₀.previous.isSome →
    f s = .ok (a, s') → e.after.length ≤ s'.ahead.length →
    ∃ s₀', e.Pairs s' s₀' ∧ s₀'.previous.isSome ∧ f s₀ = .ok (a, s₀')

namespace Reader

variable {α β : Type} {f : TokenStream → Except SyntaxFault (α × TokenStream)}

/-- A reader that reads nothing reads the same between braces and alone. -/
theorem pure (a : α) : Reader fun s => .ok (a, s) where
  follows h := by cases h; exact .refl _
  alone hpairs hsome h _ := by cases h; exact ⟨_, hpairs, hsome, rfl⟩

/-- A reader that always fails reads the same between braces and alone. -/
theorem fail (h : ∀ s, ∃ fault, f s = .error fault) : Reader f where
  follows hs := by
    obtain ⟨fault, hfault⟩ := h _
    rw [hfault] at hs
    cases hs
  alone _ _ hs _ := by
    obtain ⟨fault, hfault⟩ := h _
    rw [hfault] at hs
    cases hs

/-- Two readers, one after the other, read the same between braces and alone if each of them
does. -/
theorem bind {g : α → TokenStream → Except SyntaxFault (β × TokenStream)} (hf : Reader f)
    (hg : ∀ a, Reader (g a)) : Reader fun s => f s >>= fun r => g r.1 r.2 where
  follows h := by
    obtain ⟨⟨a, s'⟩, hread, h⟩ := Except.bind_eq_ok h
    exact ((hg a).follows h).trans (hf.follows hread)
  alone hpairs hsome h hlength := by
    obtain ⟨⟨a, s'⟩, hread, h⟩ := Except.bind_eq_ok h
    obtain ⟨s₀', hpairs', hsome', hread'⟩ :=
      hf.alone hpairs hsome hread (Nat.le_trans hlength ((hg a).follows h).length_le)
    obtain ⟨s₀'', hpairs'', hsome'', h'⟩ := (hg a).alone hpairs' hsome' h hlength
    exact ⟨s₀'', hpairs'', hsome'', by rw [hread']; exact h'⟩

/-- Reading on behind a token that stands for something. -/
theorem token {f : β → TokenStream → Except SyntaxFault (α × TokenStream)}
    {g : TokenStream → Except SyntaxFault (α × TokenStream)} {read? : Token.Kind → Option β}
    (hbrace : read? .rightBrace = none) (hend : read? .endOfInput = none)
    (hf : ∀ b, Reader (f b)) (hg : Reader g) :
    Reader fun s => (read? s.kind).elim (g s) fun b => f b s.advance where
  follows {s s' a} h := by
    cases hread : read? s.kind with
    | none =>
        rw [hread] at h
        exact hg.follows h
    | some b =>
        rw [hread] at h
        exact ((hf b).follows h).of_advance
  alone {e s s₀ s' a} hpairs hsome h hlength := by
    rw [e.alike.read?_eq hpairs hbrace hend]
    cases hread : read? s.kind with
    | none =>
        rw [hread] at h
        exact hg.alone hpairs hsome h hlength
    | some b =>
        rw [hread] at h
        have hadvance := hpairs.advance (Nat.le_trans hlength ((hf b).follows h).length_le)
        exact (hf b).alone hadvance.1 (isSome_previous_advance hsome) h hlength

/-- A reader of one token reads the same between braces and alone. -/
theorem accept (read? : Token.Kind → Option α) (expectation : Expectation) :
    Reader (accept read? expectation) where
  follows h := by
    obtain ⟨-, rfl⟩ := accept_eq_ok h
    exact follows_advance _
  alone {e s s₀ s' a} hpairs hsome h hlength := by
    obtain ⟨hread, rfl⟩ := accept_eq_ok h
    refine ⟨s₀.advance, (hpairs.advance hlength).1, isSome_previous_advance hsome, ?_⟩
    rw [TokenStream.accept, hpairs.kind_eq hlength, hread]

/-- A closing brace may end what `f` reads. -/
theorem ite_brace (a : α) (hf : Reader f) :
    Reader fun s => if s.kind = .rightBrace then .ok (a, s.advance) else f s where
  follows h := by
    split at h
    · cases h
      exact follows_advance _
    · exact hf.follows h
  alone {e s s₀ s' b} hpairs hsome h hlength := by
    split at h
    · next hkind =>
        cases h
        refine ⟨s₀.advance, (hpairs.advance hlength).1, isSome_previous_advance hsome, ?_⟩
        rw [if_pos ((hpairs.kind_eq hlength).trans hkind)]
    · next hkind =>
        have hkind₀ : s₀.kind ≠ .rightBrace := by
          obtain ⟨previous, _ | ⟨t, ts⟩⟩ := hpairs
          · simp
          · exact hkind
        simpa only [hkind₀, if_false] using hf.alone hpairs hsome h hlength

end Reader

/-! ## Attributes -/

/-- The first closing brace of the stream, or its end. -/
def atRightBrace (s : TokenStream) : TokenStream :=
  toRightBrace s.previous s.current s.ahead

/-- The first closing brace is here, or the first one behind the current token. -/
theorem atRightBrace_eq (s : TokenStream) : atRightBrace s =
    if s.ahead = [] ∨ s.kind = .rightBrace ∨ s.kind = .endOfInput then s
    else atRightBrace s.advance := by
  obtain ⟨previous, current, _ | ⟨t, ts⟩⟩ := s
  · rfl
  · simp [atRightBrace, toRightBrace, kind, TokenStream.advance]

/-- The way to a closing brace leads forward. -/
theorem follows_toRightBrace (previous : Option Token) (t : Token) (ts : List Token) :
    (toRightBrace previous t ts).Follows ⟨previous, t, ts⟩ := by
  induction ts generalizing previous t with
  | nil => exact .refl _
  | cons u ts ih =>
      unfold toRightBrace
      split
      · exact .refl _
      · exact (ih (some t) u).trans (follows_advance ⟨previous, t, u :: ts⟩)

/-- The first closing brace inside of braces is at the place where the tokens alone have theirs, or
where they end. -/
theorem pairs_atRightBrace {e : Enclosure} {s s₀ : TokenStream} (h : e.Pairs s s₀) :
    e.Pairs (atRightBrace s) (atRightBrace s₀) := by
  obtain ⟨previous, ts⟩ := h
  induction ts generalizing previous with
  | nil =>
      rw [atRightBrace_eq (e.inside previous []), if_pos (by simp), atRightBrace_eq,
        if_pos (by simp)]
      exact .mk ..
  | cons t ts ih =>
      rw [atRightBrace_eq (e.inside previous (t :: ts)),
        atRightBrace_eq (e.alone previous (t :: ts))]
      have hahead : (e.inside previous (t :: ts)).ahead ≠ [] := by simp [Enclosure.inside]
      have hahead₀ : (e.alone previous (t :: ts)).ahead ≠ [] := by simp [Enclosure.alone]
      simp only [hahead, hahead₀, false_or, Enclosure.kind_inside_cons, Enclosure.kind_alone_cons,
        Enclosure.advance_inside, Enclosure.advance_alone]
      split
      · exact .mk ..
      · exact ih (some t)

/-- A place with a token before it has one before the closing brace behind it, too. -/
theorem isSome_previous_toRightBrace {previous : Option Token} (h : previous.isSome) (t : Token)
    (ts : List Token) : (toRightBrace previous t ts).previous.isSome := by
  induction ts generalizing previous t with
  | nil => exact h
  | cons u ts ih =>
      unfold toRightBrace
      split
      · exact h
      · exact ih rfl u

/-- Whether import attributes start here. -/
def atAttributes (s : TokenStream) : Bool :=
  (s.atKeyword .«with» || s.atWord "assert") && !s.current.newlineBefore
    && s.second.kind == .leftBrace

/-- Attributes are skipped up to the first closing brace behind the opening one, and are faulty
without it. -/
theorem skipAttributes_eq (s : TokenStream) : s.skipAttributes =
    if atAttributes s then
      if (atRightBrace s.advance.advance).kind = .rightBrace then
        .ok (atRightBrace s.advance.advance).advance
      else .error ((atRightBrace s.advance.advance).fault .unclosedAttributes)
    else .ok s := rfl

/-- Attributes start with `with` or `assert` and an opening brace. -/
theorem kinds_of_atAttributes {s : TokenStream} (h : atAttributes s = true) :
    (s.kind = .keyword .«with» ∨ s.kind = .identifier "assert") ∧ s.advance.kind = .leftBrace := by
  simp only [atAttributes, Bool.and_eq_true, Bool.or_eq_true, beq_iff_eq] at h
  exact ⟨h.1.1.imp atKeyword_iff.1 atWord_iff.1, h.2⟩

/-- Import attributes start at both places or at none, where the current tokens agree about the
line. -/
theorem Alike.atAttributes_eq {R : TokenStream → TokenStream → Prop} (hR : Alike R)
    {s s₀ : TokenStream} (h : R s s₀)
    (hline : s.kind ≠ .rightBrace → s₀.current.newlineBefore = s.current.newlineBefore) :
    atAttributes s₀ = atAttributes s := by
  rw [atAttributes, atAttributes, hR.atKeyword_eq h, hR.atWord_eq h]
  cases hword : (s.atKeyword .«with» || s.atWord "assert") with
  | false => rfl
  | true =>
      have hkind : s.kind ≠ .rightBrace := by
        intro hkind
        simp [atKeyword, atWord, Token.isWord, hkind, show s.current.kind = s.kind from rfl]
          at hword
      have hsecond : (s₀.second.kind == .leftBrace) = (s.second.kind == .leftBrace) :=
        hR.kind_beq (hR.advance h hkind) (by simp) (by simp)
      rw [hline hkind, hsecond]

/-- Skipping attributes leads forward. -/
theorem follows_skipAttributes {s s' : TokenStream} (h : s.skipAttributes = .ok s') :
    s'.Follows s := by
  rw [skipAttributes_eq] at h
  split at h
  · split at h <;> cases h
    have hclose : (atRightBrace s.advance.advance).Follows s.advance.advance :=
      follows_toRightBrace ..
    exact (follows_advance _).trans (hclose.of_advance.of_advance)
  · cases h
    exact .refl _

/-- Attributes are skipped the same between braces and alone. -/
theorem Reader.skipAttributes : Reader fun s => s.skipAttributes.map (Prod.mk ()) where
  follows {s s' a} h := by
    cases hskip : s.skipAttributes with
    | error fault => simp [hskip, Except.map] at h
    | ok s'' =>
        rw [hskip] at h
        cases h
        exact follows_skipAttributes hskip
  alone {e s s₀ s' a} hpairs hsome h hlength := by
    simp only [skipAttributes_eq] at h
    rw [← e.alike.atAttributes_eq hpairs fun _ => hpairs.newlineBefore_eq] at h
    cases hat : atAttributes s₀ with
    | false =>
        rw [hat] at h
        cases h
        exact ⟨s₀, hpairs, hsome, by rw [skipAttributes_eq, hat]; rfl⟩
    | true =>
        rw [hat, if_pos rfl] at h
        split at h
        · next hclose =>
            cases h
            have hfollows : (atRightBrace s.advance.advance).Follows s.advance.advance :=
              follows_toRightBrace ..
            have hlength₂ : e.after.length ≤ s.advance.advance.ahead.length :=
              Nat.le_trans hlength ((follows_advance _).trans hfollows).length_le
            have hpairs₁ := (hpairs.advance
              (Nat.le_trans hlength₂ (follows_advance _).length_le)).1
            have hpairs₂ := pairs_atRightBrace (hpairs₁.advance hlength₂).1
            have hkind : (atRightBrace s₀.advance.advance).kind = .rightBrace :=
              (hpairs₂.kind_eq hlength).trans hclose
            refine ⟨(atRightBrace s₀.advance.advance).advance, (hpairs₂.advance hlength).1,
              isSome_previous_advance ?_, ?_⟩
            · exact isSome_previous_toRightBrace
                (isSome_previous_advance (isSome_previous_advance hsome)) ..
            · rw [skipAttributes_eq, hat, if_pos rfl, if_pos hkind]
              rfl
        · cases h

/-! ## The end of a statement -/

/-- A statement ends at a semicolon, in front of a brace, at the end of the input or in front of
another line. -/
theorem endStatement_eq (s : TokenStream) : s.endStatement =
    if s.kind = .semicolon then .ok (s.current, s.advance)
    else if (s.kind = .rightBrace ∨ s.kind = .endOfInput) ∨ s.current.newlineBefore then
      .ok (s.previous.getD s.current, s)
    else .error (s.unexpected .semicolon) := by
  unfold endStatement
  split <;> simp_all

/-- The end of a statement leads forward. -/
theorem follows_endStatement {s s' : TokenStream} {last : Token}
    (h : s.endStatement = .ok (last, s')) : s'.Follows s := by
  rw [endStatement_eq] at h
  split at h
  · cases h
    exact follows_advance s
  · split at h <;> cases h
    exact .refl _

/-- A statement ends alone as it does between the braces: the closing brace ends it there, the end
of the input here. -/
theorem endStatement_alone {e : Enclosure} {s s₀ s' : TokenStream} {last : Token}
    (hpairs : e.Pairs s s₀) (hsome : s₀.previous.isSome) (h : s.endStatement = .ok (last, s'))
    (hlength : e.after.length ≤ s'.ahead.length) :
    ∃ s₀' last₀, e.Pairs s' s₀' ∧ last = last₀.shift e.offset ∧
      s₀.endStatement = .ok (last₀, s₀') := by
  have hsemicolon := hpairs.kind_iff (k := .semicolon) (by simp) (by simp)
  simp only [endStatement_eq s, ← hpairs.ends_iff, ← hpairs.newlineBefore_eq, ← hsemicolon] at h
  split at h
  · next hkind =>
      cases h
      obtain ⟨hpairs', hcurrent⟩ := hpairs.advance hlength
      exact ⟨s₀.advance, s₀.current, hpairs', hcurrent, by rw [endStatement_eq, if_pos hkind]⟩
  · next hkind =>
      split at h <;> cases h
      next hends =>
        obtain ⟨t, ht⟩ := Option.isSome_iff_exists.1 hsome
        refine ⟨s₀, t, hpairs, by rw [hpairs.previous_eq ht]; rfl, ?_⟩
        rw [endStatement_eq, if_neg hkind, if_pos hends, ht]
        rfl

/-! ## Lists of names -/

section Lists

variable {α : Type} {item : TokenStream → Except SyntaxFault (α × TokenStream)}

/-- Items with commas between them and perhaps one behind, up to the closing brace. -/
def listed (item : TokenStream → Except SyntaxFault (α × TokenStream)) :
    Nat → TokenStream → Except SyntaxFault (List α × TokenStream)
  | 0, s => .error (s.fault .budgetSpent)
  | n + 1, s =>
    if s.kind = .rightBrace then .ok ([], s)
    else do
      let (a, s) ← item s
      if s.kind = .comma then do
        let (as, s) ← listed item n s.advance
        .ok (a :: as, s)
      else .ok ([a], s)

/-- A list of items together with the brace behind it. -/
def closedList (item : TokenStream → Except SyntaxFault (α × TokenStream)) :
    Nat → TokenStream → Except SyntaxFault (List α × TokenStream)
  | 0, s => .error (s.fault .budgetSpent)
  | n + 1, s =>
    if s.kind = .rightBrace then .ok ([], s.advance)
    else item s >>= fun r =>
      if r.2.kind = .comma then closedList item n r.2.advance >>= fun q => .ok (r.1 :: q.1, q.2)
      else accept (only .rightBrace) (.token .rightBrace) r.2 >>= fun q => .ok ([r.1], q.2)

/-- Expecting a closing brace accepts it. -/
theorem expect_rightBrace_eq {β : Type} (s : TokenStream)
    (f : TokenStream → Except SyntaxFault β) :
    (s.expect .rightBrace >>= fun r => f r.2) =
      accept (only .rightBrace) (.token .rightBrace) s >>= fun r => f r.2 := by
  unfold expect accept only
  split <;> simp_all <;> rfl

/-- A list in braces is the list and the brace behind it. -/
theorem closedList_eq (n : Nat) (s : TokenStream) : closedList item n s =
    listed item n s >>= fun r => r.2.expect .rightBrace >>= fun q => .ok (r.1, q.2) := by
  induction n generalizing s with
  | zero => rfl
  | succ n ih =>
      rw [closedList, listed]
      split
      · next h =>
          show _ = (s.expect .rightBrace >>= fun q => Except.ok ([], q.2))
          rw [expect, if_pos h]
          rfl
      · rw [bind_assoc]
        refine bind_congr fun r => ?_
        dsimp only
        split
        · rw [ih]
          simp only [bind_assoc]
          rfl
        · exact (expect_rightBrace_eq r.2 fun s => .ok ([r.1], s)).symm

end Lists

/-! ## Readers of the parser -/

namespace Parser

/-- What `f` reads behind `as`, or `a` where there is no `as`. -/
def aliasOr {α : Type} (f : TokenStream → Except SyntaxFault (α × TokenStream)) (a : α)
    (s : TokenStream) : Except SyntaxFault (α × TokenStream) :=
  if s.atWord "as" then f s.advance else .ok (a, s)

/-- What follows an alias goes on behind it, or here if there is none. -/
theorem aliasOr_bind {α β : Type} {f : TokenStream → Except SyntaxFault (α × TokenStream)} (a : α)
    (s : TokenStream) (k : α × TokenStream → Except SyntaxFault β) :
    aliasOr f a s >>= k = if s.atWord "as" then f s.advance >>= k else k (a, s) := by
  unfold aliasOr
  split <;> rfl

/-- One name of an import. -/
def importedName (s : TokenStream) : Except SyntaxFault (ImportBinding × TokenStream) :=
  s.expectExportName >>= fun r => aliasOr expectIdentifier r.1 r.2 >>= fun q =>
    .ok (.named r.1 q.1, q.2)

/-- One name of an export. -/
def exportedName (s : TokenStream) : Except SyntaxFault (ExportedName × TokenStream) :=
  s.expectExportName >>= fun r => aliasOr expectExportName r.1 r.2 >>= fun q =>
    .ok (⟨r.1, q.1⟩, q.2)

/-- The names of an import are listed between its braces. -/
theorem importNames_eq (n : Nat) : importNames n = listed importedName n := by
  induction n with
  | zero => rfl
  | succ n ih =>
      funext s
      rw [importNames, listed, ih]
      simp only [importedName, bind_assoc]
      simp only [aliasOr_bind]
      rfl

/-- The names of an export are listed between its braces. -/
theorem exportedNames_eq (n : Nat) : exportedNames n = listed exportedName n := by
  induction n with
  | zero => rfl
  | succ n ih =>
      funext s
      rw [exportedNames, listed, ih]
      simp only [exportedName, bind_assoc]
      simp only [aliasOr_bind]
      rfl

/-- A default binding is a name with a comma or `from` behind it; only the comma is consumed. -/
theorem defaultBinding_eq (s : TokenStream) : defaultBinding s =
    (identifier? s.kind).elim ([], s) fun name =>
      if s.advance.kind = .comma then ([.default name], s.advance.advance)
      else if s.advance.kind = .identifier "from" then ([.default name], s.advance)
      else ([], s) := by
  unfold defaultBinding identifier?
  cases s.kind with
  | identifier name =>
      show (if s.second.kind = .comma then _ else if (s.second.kind == .identifier "from") = true
        then _ else _) = _
      simp only [beq_iff_eq]
      rfl
  | _ => rfl

/-- Behind a default binding come a namespace, names in braces or nothing, but nothing only if there
is a default binding. -/
theorem furtherBindings_eq (n : Nat) (hasDefault : Bool) (s : TokenStream) :
    furtherBindings n hasDefault s =
      if s.kind = .star then
        s.advance.expectWord "as" >>= fun s => s.expectIdentifier >>= fun r =>
          .ok ([.namespace r.1], r.2)
      else if s.kind = .leftBrace then
        importNames n s.advance >>= fun r => r.2.expect .rightBrace >>= fun q => .ok (r.1, q.2)
      else if hasDefault then .ok ([], s) else .error (s.unexpected .importClause) := by
  unfold furtherBindings
  split <;> simp_all

/-- The text of a string. -/
def string? : Token.Kind → Option String
  | .string text => some text
  | _ => none

/-- An import declaration behind `import`, without its end. -/
def importClause (n : Nat) (s : TokenStream) :
    Except SyntaxFault ((Specifier × List ImportBinding) × TokenStream) :=
  (string? s.kind).elim
    (Except.ok (defaultBinding s) >>= fun r =>
      furtherBindings n (!r.1.isEmpty) r.2 >>= fun q => q.2.expectWord "from" >>= fun s =>
        specifier s >>= fun p => .ok ((p.1, r.1 ++ q.1), p.2))
    fun url => s.advance.skipAttributes >>= fun s => .ok ((.url url, []), s)

/-- What `export *` has behind the star, without its end. -/
def allClause (s : TokenStream) : Except SyntaxFault ((Specifier × Option String) × TokenStream) :=
  (if s.atWord "as" then s.advance.expectExportName >>= fun r => .ok (some r.1, r.2)
    else .ok (none, s)) >>= fun r => r.2.expectWord "from" >>= fun s => specifier s >>= fun q =>
      .ok ((q.1, r.1), q.2)

/-- What `export` with names in braces has behind the opening brace, without its end. -/
def namesClause (n : Nat) (s : TokenStream) :
    Except SyntaxFault ((List ExportedName × Option Specifier) × TokenStream) :=
  (exportedNames n s >>= fun r => r.2.expect .rightBrace >>= fun q => .ok (r.1, q.2)) >>= fun r =>
    (if r.2.atWord "from" then specifier r.2.advance >>= fun q => .ok (some q.1, q.2)
      else .ok (none, r.2)) >>= fun q => .ok ((r.1, q.1), q.2)

end Parser

open ModuleGraph.Parser

/-! ## Readers put together -/

/-- A reader that accepts nothing at the end of the input. -/
def NeedsToken {α : Type} (f : TokenStream → Except SyntaxFault (α × TokenStream)) : Prop :=
  ∀ s : TokenStream, s.kind = .endOfInput → ∃ fault, f s = .error fault

/-- A name of an import is not read from the end of the input. -/
theorem needsToken_importedName : NeedsToken importedName := by
  intro s hs
  rw [importedName, expectExportName_eq, accept, hs]
  exact ⟨_, rfl⟩

/-- A name of an export is not read from the end of the input. -/
theorem needsToken_exportedName : NeedsToken exportedName := by
  intro s hs
  rw [exportedName, expectExportName_eq, accept, hs]
  exact ⟨_, rfl⟩

/-- A property of readers that is kept where readers are put together as those of import and export
clauses are. -/
structure Compositional
    (P : ∀ {α : Type}, (TokenStream → Except SyntaxFault (α × TokenStream)) → Prop) : Prop where
  pure : ∀ {α : Type} (a : α), P fun s => .ok (a, s)
  unexpected : ∀ {α : Type} (expectation : Expectation),
    @P α fun s => .error (s.unexpected expectation)
  bind : ∀ {α β : Type} {f : TokenStream → Except SyntaxFault (α × TokenStream)}
    {g : α → TokenStream → Except SyntaxFault (β × TokenStream)}, P f → (∀ a, P (g a)) →
      P fun s => f s >>= fun r => g r.1 r.2
  accept : ∀ {α : Type} {read? : Token.Kind → Option α} (expectation : Expectation),
    read? .endOfInput = none → P (accept read? expectation)
  token : ∀ {α β : Type} {f : β → TokenStream → Except SyntaxFault (α × TokenStream)}
    {g : TokenStream → Except SyntaxFault (α × TokenStream)} {read? : Token.Kind → Option β},
    read? .rightBrace = none → read? .endOfInput = none → (∀ b, P (f b)) → P g →
      P fun s => (read? s.kind).elim (g s) fun b => f b s.advance
  close : ∀ {α : Type} {f : TokenStream → Except SyntaxFault (α × TokenStream)} (a : α),
    NeedsToken f → P f → P fun s => if s.kind = .rightBrace then .ok (a, s.advance) else f s
  skipAttributes : P fun s => s.skipAttributes.map (Prod.mk ())
  defaultBinding : P fun s => .ok (Parser.defaultBinding s)

/-- With the budget `n` a list in braces has a property, if the reader of its items has it. -/
def ReadsLists (n : Nat)
    (P : ∀ {α : Type}, (TokenStream → Except SyntaxFault (α × TokenStream)) → Prop) : Prop :=
  ∀ {α : Type} {item : TokenStream → Except SyntaxFault (α × TokenStream)},
    NeedsToken item → P item → P (closedList item n)

namespace Compositional

variable {P : ∀ {α : Type}, (TokenStream → Except SyntaxFault (α × TokenStream)) → Prop}
  {α β : Type} {f g : TokenStream → Except SyntaxFault (α × TokenStream)} {n : Nat}

/-- A reader has the properties of one that reads the same. -/
theorem congr (hg : P g) (h : ∀ s, f s = g s) : P f :=
  (funext h : f = g) ▸ hg

/-- Going on behind a reader that only moves. -/
theorem andThen (hP : Compositional P) {move : TokenStream → Except SyntaxFault TokenStream}
    (hmove : P fun s => (move s).map (Prod.mk ())) (hf : P f) : P fun s => move s >>= f :=
  congr (hP.bind hmove fun _ => hf) fun s => by cases move s <;> rfl

/-- Reading on behind a token of the kind `k`. -/
theorem ite (hP : Compositional P) {k : Token.Kind} (hbrace : k ≠ .rightBrace)
    (hend : k ≠ .endOfInput) (hf : P f) (hg : P g) :
    P fun s => if s.kind = k then f s.advance else g s := by
  have htoken : P fun s => (only k s.kind).elim (g s) fun _ => f s.advance :=
    hP.token (by simp [only, hbrace.symm]) (by simp [only, hend.symm]) (fun _ => hf) hg
  exact congr htoken fun s => by
    unfold only
    split <;> rfl

/-- A reader that goes on behind a word, or with another one where the word is not, has a
compositional property of both. -/
theorem atWord (hP : Compositional P) (word : String) (hf : P f) (hg : P g) :
    P fun s => if s.atWord word then f s.advance else g s :=
  congr (hP.ite (k := .identifier word) (by simp) (by simp) hf hg) fun s => by
    simp only [atWord_iff]

/-- A list has the property of its items, if a reader has it that is short of budget. -/
theorem readsLists (hP : Compositional P)
    (hspent : ∀ {α : Type}, @P α fun s => .error (s.fault .budgetSpent)) (n : Nat) :
    ReadsLists n P := by
  intro α f hneeds hf
  induction n with
  | zero => exact hspent
  | succ n ih =>
      have htail : ∀ a, P fun s =>
          if s.kind = .comma then
            ModuleGraph.closedList f n s.advance >>= fun q => .ok (a :: q.1, q.2)
          else TokenStream.accept (only .rightBrace) (.token .rightBrace) s >>= fun q =>
            .ok ([a], q.2) :=
        fun a => hP.ite (by simp) (by simp) (hP.bind ih fun as => hP.pure (a :: as))
          (hP.bind (hP.accept _ rfl) fun _ => hP.pure [a])
      refine hP.close [] (fun s hs => ?_) (hP.bind hf htail)
      obtain ⟨fault, hfault⟩ := hneeds s hs
      exact ⟨fault, by rw [hfault]; rfl⟩

/-! ### Parts of clauses -/

/-- A compositional property is one of reading an identifier. -/
theorem expectIdentifier (hP : Compositional P) : P expectIdentifier :=
  congr (hP.accept _ rfl) expectIdentifier_eq

/-- A compositional property is one of reading an export name. -/
theorem expectExportName (hP : Compositional P) : P expectExportName :=
  congr (hP.accept _ rfl) expectExportName_eq

/-- A compositional property is one of reading a specifier. -/
theorem expectSpecifier (hP : Compositional P) : P expectSpecifier :=
  congr (hP.accept _ rfl) expectSpecifier_eq

/-- A compositional property is one of reading a word. -/
theorem expectWord (hP : Compositional P) (word : String) :
    P fun s => (s.expectWord word).map (Prod.mk ()) := by
  have haccept : P (TokenStream.accept (only (.identifier word)) (.word word)) :=
    hP.accept _ rfl
  refine congr haccept fun s => ?_
  rw [expectWord_eq]
  cases TokenStream.accept (only (.identifier word)) (.word word) s <;> rfl

/-- A compositional property is one of reading an alias, if it is one of what stands behind `as`. -/
theorem aliasOr (hP : Compositional P) (hf : P f) (a : α) : P (aliasOr f a) :=
  hP.atWord "as" hf (hP.pure a)

/-- A compositional property is one of reading a name of an import. -/
theorem importedName (hP : Compositional P) : P importedName :=
  hP.bind hP.expectExportName fun imported =>
    hP.bind (hP.aliasOr hP.expectIdentifier imported) fun localName =>
      hP.pure (ImportBinding.named imported localName)

/-- A compositional property is one of reading a name of an export. -/
theorem exportedName (hP : Compositional P) : P exportedName :=
  hP.bind hP.expectExportName fun localName =>
    hP.bind (hP.aliasOr hP.expectExportName localName) fun exported =>
      hP.pure (ExportedName.mk localName exported)

/-- A compositional property is one of reading a specifier with its attributes. -/
theorem specifier (hP : Compositional P) : P specifier :=
  hP.bind hP.expectSpecifier fun source => hP.andThen hP.skipAttributes (hP.pure source)

/-- The list of names behind the opening brace of an import. -/
theorem importList (hP : Compositional P) (hlists : ReadsLists n P) :
    P fun s => importNames n s >>= fun r => r.2.expect .rightBrace >>= fun q => .ok (r.1, q.2) :=
  congr (hlists needsToken_importedName hP.importedName) fun s => by
    rw [closedList_eq, importNames_eq]

/-- A compositional property is one of reading the names of an export with their closing brace. -/
theorem exportList (hP : Compositional P) (hlists : ReadsLists n P) :
    P fun s => exportedNames n s >>= fun r => r.2.expect .rightBrace >>= fun q =>
      .ok (r.1, q.2) :=
  congr (hlists needsToken_exportedName hP.exportedName) fun s => by
    rw [closedList_eq, exportedNames_eq]

/-- A compositional property is one of reading what stands behind a default binding. -/
theorem furtherBindings (hP : Compositional P) (hlists : ReadsLists n P) (hasDefault : Bool) :
    P (furtherBindings n hasDefault) := by
  have hnamespace : P fun s => s.expectWord "as" >>= fun s => s.expectIdentifier >>= fun r =>
      .ok ([ImportBinding.namespace r.1], r.2) :=
    hP.andThen (hP.expectWord "as") (hP.bind hP.expectIdentifier fun name =>
      hP.pure [ImportBinding.namespace name])
  have hnothing : P fun s =>
      if hasDefault then .ok (([] : List ImportBinding), s)
      else .error (s.unexpected .importClause) := by
    cases hasDefault with
    | true => exact hP.pure []
    | false => exact hP.unexpected .importClause
  exact congr (hP.ite (by simp) (by simp) hnamespace
    (hP.ite (by simp) (by simp) (hP.importList hlists) hnothing)) (furtherBindings_eq n hasDefault)

/-- A compositional property is one of reading what an import is from. -/
theorem importSource (hP : Compositional P) (bindings : List ImportBinding) :
    P fun s => s.expectWord "from" >>= fun s => Parser.specifier s >>= fun p =>
      .ok ((p.1, bindings), p.2) :=
  hP.andThen (hP.expectWord "from") (hP.bind hP.specifier fun source =>
    hP.pure (source, bindings))

/-- A compositional property is one of reading what an export is from, if it says so. -/
theorem exportSource (hP : Compositional P) (names : List ExportedName) :
    P fun s => (if s.atWord "from" then Parser.specifier s.advance >>= fun q => .ok (some q.1, q.2)
      else .ok (none, s)) >>= fun q => .ok ((names, q.1), q.2) :=
  hP.bind (hP.atWord "from" (hP.bind hP.specifier fun source => hP.pure (some source))
    (hP.pure none)) fun source => hP.pure (names, source)

/-! ### Clauses -/

/-- A compositional property is one of reading an import behind its keyword. -/
theorem importClause (hP : Compositional P) (hlists : ReadsLists n P) : P (importClause n) := by
  have hclause : P fun s => Except.ok (Parser.defaultBinding s) >>= fun r =>
      Parser.furtherBindings n (!r.1.isEmpty) r.2 >>= fun q => q.2.expectWord "from" >>= fun s =>
        Parser.specifier s >>= fun p => .ok ((p.1, r.1 ++ q.1), p.2) :=
    hP.bind hP.defaultBinding fun first =>
      hP.bind (hP.furtherBindings hlists (!first.isEmpty)) fun more =>
        hP.importSource (first ++ more)
  have hstring : ∀ url, P fun s => s.skipAttributes >>= fun s =>
      .ok ((Specifier.url url, ([] : List ImportBinding)), s) := fun url =>
    hP.andThen hP.skipAttributes (hP.pure (Specifier.url url, []))
  exact hP.token rfl rfl hstring hclause

/-- A compositional property is one of reading an `export *` behind its star. -/
theorem allClause (hP : Compositional P) : P allClause :=
  hP.bind (hP.atWord "as" (hP.bind hP.expectExportName fun name => hP.pure (some name))
    (hP.pure none)) fun name? =>
      hP.andThen (hP.expectWord "from") (hP.bind hP.specifier fun source =>
        hP.pure (source, name?))

/-- A compositional property is one of reading an export of names behind its opening brace. -/
theorem namesClause (hP : Compositional P) (hlists : ReadsLists n P) : P (namesClause n) :=
  hP.bind (hP.exportList hlists) fun names => hP.exportSource names

end Compositional

/-! ## Reading between braces and alone -/

/-- A default binding is read the same between braces and alone. -/
theorem Reader.defaultBinding : Reader fun s => .ok (Parser.defaultBinding s) where
  follows {s s' a} h := by
    rw [defaultBinding_eq] at h
    cases hread : identifier? s.kind with
    | none =>
        rw [hread] at h
        cases h
        exact .refl s
    | some name =>
        rw [hread] at h
        dsimp only [Option.elim] at h
        split at h
        · cases h
          exact (follows_advance _).of_advance
        · split at h <;> cases h
          · exact follows_advance s
          · exact .refl s
  alone {e s s₀ s' a} hpairs hsome h hlength := by
    rw [defaultBinding_eq] at h ⊢
    rw [hpairs.identifier?_eq]
    cases hread : identifier? s.kind with
    | none =>
        rw [hread] at h
        cases h
        exact ⟨s₀, hpairs, hsome, rfl⟩
    | some name =>
        rw [hread] at h
        -- a name stands here, so that the token behind it is read in both places
        have hkind : s.kind ≠ .rightBrace := kind_ne_of_read? hread rfl
        have hpairs₁ := hpairs.advance_of_kind hkind
        have hcomma := hpairs₁.kind_iff (k := .comma) (by simp) (by simp)
        have hfrom := hpairs₁.kind_iff (k := .identifier "from") (by simp) (by simp)
        dsimp only [Option.elim] at h ⊢
        simp only [hcomma, hfrom]
        split at h
        · next hkind₁ =>
            cases h
            exact ⟨s₀.advance.advance, hpairs₁.advance_of_kind (by simp [hkind₁]),
              isSome_previous_advance (isSome_previous_advance hsome), by rw [if_pos hkind₁]⟩
        · next hkind₁ =>
            rw [if_neg hkind₁]
            split at h
            · next hkind₂ =>
                cases h
                exact ⟨s₀.advance, hpairs₁, isSome_previous_advance hsome, by rw [if_pos hkind₂]⟩
            · next hkind₂ =>
                cases h
                exact ⟨s₀, hpairs, hsome, by rw [if_neg hkind₂]⟩

/-- Readers that read the same between braces and alone can be put together. -/
theorem Reader.compositional : Compositional @Reader where
  pure := .pure
  unexpected _ := .fail fun _ => ⟨_, rfl⟩
  bind := .bind
  accept expectation _ := .accept _ expectation
  token := .token
  close a _ := .ite_brace a
  skipAttributes := .skipAttributes
  defaultBinding := .defaultBinding

/-- Lists are read the same between braces and alone. -/
theorem Reader.readsLists (n : Nat) : ReadsLists n @Reader :=
  Reader.compositional.readsLists (.fail fun _ => ⟨_, rfl⟩) n

namespace Parser

/-- An import is read the same between braces and alone. -/
theorem reader_importClause (n : Nat) : Reader (importClause n) :=
  Reader.compositional.importClause (Reader.readsLists n)

/-- An `export *` is read the same between braces and alone. -/
theorem reader_allClause : Reader allClause :=
  Reader.compositional.allClause

/-- An export of names is read the same between braces and alone. -/
theorem reader_namesClause (n : Nat) : Reader (namesClause n) :=
  Reader.compositional.namesClause (Reader.readsLists n)

/-! ## Budgets -/

/-- A list is read with every budget that is more than its tokens. -/
theorem closedList_budget {α : Type}
    {item : TokenStream → Except SyntaxFault (α × TokenStream)} (hneeds : NeedsToken item)
    (hitem : Reader item) {n : Nat} {s s' : TokenStream} {as : List α}
    (h : closedList item n s = .ok (as, s')) (hs : s.Closed) {m : Nat}
    (hm : s.ahead.length < s'.ahead.length + m) : closedList item m s = .ok (as, s') := by
  induction n generalizing s as m with
  | zero => cases h
  | succ n ih =>
      have hlength := ((Reader.readsLists _ hneeds hitem).follows h).length_le
      obtain ⟨m, rfl⟩ : ∃ m', m = m' + 1 := ⟨m - 1, by omega⟩
      rw [closedList] at h ⊢
      split at h
      · next hbrace =>
          rw [if_pos hbrace]
          exact h
      · next hbrace =>
          rw [if_neg hbrace]
          obtain ⟨⟨a, s₁⟩, hread, h⟩ := Except.bind_eq_ok h
          have hfollows := hitem.follows hread
          have hlength₁ := hfollows.length_le
          rw [hread]
          show (if s₁.kind = .comma then _ else _) = _
          split at h
          · next hcomma =>
              rw [if_pos hcomma]
              obtain ⟨⟨as, s₂⟩, htail, h⟩ := Except.bind_eq_ok h
              cases h
              have hs₁ := hs.of_follows hfollows
              have hadvance := hs₁.length_advance (by simp [hcomma])
              dsimp only at htail
              rw [ih htail (hs₁.of_follows (follows_advance s₁)) (by omega)]
              rfl
          · next hcomma =>
              rw [if_neg hcomma]
              exact h

/-- What stands behind a default binding is read with every budget above its tokens. -/
theorem furtherBindings_budget {n : Nat} {hasDefault : Bool} {s s' : TokenStream}
    {bindings : List ImportBinding} (h : furtherBindings n hasDefault s = .ok (bindings, s'))
    (hs : s.Closed) {m : Nat} (hm : s.ahead.length < s'.ahead.length + m) :
    furtherBindings m hasDefault s = .ok (bindings, s') := by
  rw [furtherBindings_eq, importNames_eq, ← closedList_eq] at h ⊢
  split at h
  · next hstar =>
      rw [if_pos hstar]
      exact h
  · next hstar =>
      rw [if_neg hstar]
      split at h
      · next hbrace =>
          rw [if_pos hbrace]
          have hlength := (follows_advance s).length_le
          exact closedList_budget needsToken_importedName
            Reader.compositional.importedName h (hs.of_follows (follows_advance s))
            (by omega)
      · next hbrace =>
          rw [if_neg hbrace]
          exact h

/-- An import is read with every budget above its tokens. -/
theorem importClause_budget {n : Nat} {s s' : TokenStream} {x : Specifier × List ImportBinding}
    (h : importClause n s = .ok (x, s')) (hs : s.Closed) {m : Nat}
    (hm : s.ahead.length < s'.ahead.length + m) : importClause m s = .ok (x, s') := by
  unfold importClause at h ⊢
  cases hstring : string? s.kind with
  | some url =>
      rw [hstring] at h
      exact h
  | none =>
      rw [hstring] at h
      obtain ⟨⟨first, s₁⟩, hfirst, h⟩ := Except.bind_eq_ok h
      obtain ⟨⟨more, s₂⟩, hmore, h⟩ := Except.bind_eq_ok h
      have hfollows₁ := Reader.defaultBinding.follows hfirst
      have hlength₁ := hfollows₁.length_le
      have hlength₂ := ((Reader.compositional.importSource (first ++ more)).follows h).length_le
      have hmore' := furtherBindings_budget hmore (hs.of_follows hfollows₁) (m := m)
        (by dsimp only at hlength₁ hlength₂ ⊢; omega)
      rw [Option.elim, hfirst]
      show (furtherBindings m _ s₁ >>= _) = _
      rw [hmore']
      exact h

/-- A statement that `f` reads, with its end. -/
def ended {α : Type} (f : TokenStream → Except SyntaxFault (α × TokenStream))
    (build : α → Span → Statement) (start : Span) (s : TokenStream) :
    Except SyntaxFault (Statement × TokenStream) :=
  f s >>= fun r => r.2.endStatement >>= fun q => .ok (build r.1 (start.cover q.1.span), q.2)

/-- An import declaration is its clause with the end of the statement. -/
theorem importDeclaration_eq (n : Nat) (s : TokenStream) : importDeclaration n s =
    ended (importClause n) (fun x => .importFrom x.1 x.2) s.current.span s.advance := by
  unfold importDeclaration ended importClause string?
  dsimp only
  cases s.advance.kind with
  | string url =>
      simp only [Option.elim, bind_assoc]
      rfl
  | _ =>
      simp only [Option.elim, bind_assoc]
      rfl

/-- An `export *` is its clause with the end of the statement. -/
theorem exportAllClause_eq (start : Span) (s : TokenStream) : exportAllClause start s =
    ended allClause (fun x => .exportAll x.1 x.2) start s := by
  unfold exportAllClause ended allClause
  simp only [bind_assoc]
  split
  · simp only [bind_assoc]
    rfl
  · rfl

/-- An export of names is its clause with the end of the statement. -/
theorem exportNamesClause_eq (n : Nat) (start : Span) (s : TokenStream) :
    exportNamesClause n start s =
      ended (namesClause n) (fun x => .exportNames x.1 x.2) start s := by
  unfold exportNamesClause ended namesClause
  simp only [bind_assoc]
  refine bind_congr fun r => bind_congr fun q => ?_
  show (if q.2.atWord "from" then _ else _) = (if q.2.atWord "from" then _ else _) >>= _
  split
  · simp only [bind_assoc]
    rfl
  · rfl

/-- An export of names is read with every budget above its tokens. -/
theorem namesClause_budget {n : Nat} {s s' : TokenStream}
    {x : List ExportedName × Option Specifier} (h : namesClause n s = .ok (x, s')) (hs : s.Closed)
    {m : Nat} (hm : s.ahead.length < s'.ahead.length + m) : namesClause m s = .ok (x, s') := by
  unfold namesClause at h ⊢
  rw [exportedNames_eq, ← closedList_eq] at h ⊢
  obtain ⟨⟨names, s₁⟩, hnames, h⟩ := Except.bind_eq_ok h
  have hlength := ((Reader.compositional.exportSource names).follows h).length_le
  rw [closedList_budget needsToken_exportedName Reader.compositional.exportedName hnames hs (m := m)
    (by dsimp only at hlength ⊢; omega)]
  exact h

/-- A statement with its end leads forward. -/
theorem follows_ended {α : Type} {f : TokenStream → Except SyntaxFault (α × TokenStream)}
    (hf : Reader f) {build : α → Span → Statement} {start : Span} {s s' : TokenStream}
    {statement : Statement} (h : ended f build start s = .ok (statement, s')) : s'.Follows s := by
  obtain ⟨r, hread, h⟩ := Except.bind_eq_ok h
  obtain ⟨q, hend, h⟩ := Except.bind_eq_ok h
  cases h
  exact (follows_endStatement hend).trans (hf.follows hread)

/-- An import declaration leads forward from behind its keyword. -/
theorem follows_importDeclaration {n : Nat} {s s' : TokenStream} {statement : Statement}
    (h : importDeclaration n s = .ok (statement, s')) : s'.Follows s.advance := by
  rw [importDeclaration_eq] at h
  exact follows_ended (reader_importClause n) h

/-- An `export *` leads forward from behind its star. -/
theorem follows_exportAllClause {start : Span} {s s' : TokenStream} {statement : Statement}
    (h : exportAllClause start s = .ok (statement, s')) : s'.Follows s := by
  rw [exportAllClause_eq] at h
  exact follows_ended reader_allClause h

/-- An export of names leads forward from behind its opening brace. -/
theorem follows_exportNamesClause {n : Nat} {start : Span} {s s' : TokenStream}
    {statement : Statement} (h : exportNamesClause n start s = .ok (statement, s')) :
    s'.Follows s := by
  rw [exportNamesClause_eq] at h
  exact follows_ended (reader_namesClause n) h

/-- A statement with its end is read with any other budget with which its clause is. -/
theorem ended_budget {α : Type} {f g : TokenStream → Except SyntaxFault (α × TokenStream)}
    {build : α → Span → Statement} {start : Span} {s s' : TokenStream} {statement : Statement}
    (h : ended f build start s = .ok (statement, s'))
    (hg : ∀ a s₁, s'.ahead.length ≤ s₁.ahead.length → f s = .ok (a, s₁) → g s = .ok (a, s₁)) :
    ended g build start s = .ok (statement, s') := by
  obtain ⟨⟨a, s₁⟩, hread, h⟩ := Except.bind_eq_ok h
  obtain ⟨⟨last, s₂⟩, hend, h'⟩ := Except.bind_eq_ok h
  cases h'
  rw [ended, hg a s₁ (follows_endStatement hend).length_le hread]
  exact h

/-- An import declaration is read with every budget above its tokens. -/
theorem importDeclaration_budget {n : Nat} {s s' : TokenStream} {statement : Statement}
    (h : importDeclaration n s = .ok (statement, s')) (hs : s.Closed) {m : Nat}
    (hm : s.ahead.length < s'.ahead.length + m) :
    importDeclaration m s = .ok (statement, s') := by
  rw [importDeclaration_eq] at h ⊢
  have hlength := (follows_advance s).length_le
  exact ended_budget h fun a s₁ hs₁ hread =>
    importClause_budget hread (hs.of_follows (follows_advance s)) (by omega)

/-- An export of names with its end is read with every budget above its tokens. -/
theorem exportNamesClause_budget {n : Nat} {start : Span} {s s' : TokenStream}
    {statement : Statement} (h : exportNamesClause n start s = .ok (statement, s'))
    (hs : s.Closed) {m : Nat} (hm : s.ahead.length < s'.ahead.length + m) :
    exportNamesClause m start s = .ok (statement, s') := by
  rw [exportNamesClause_eq] at h ⊢
  exact ended_budget h fun a s₁ hs₁ hread => namesClause_budget hread hs (by omega)

end Parser

end ModuleGraph
