import ModuleGraph.Proofs.Lookahead
import ModuleGraph.Proofs.Scanning

/-!
# Tokens between braces

The tokens between a pair of braces are read in two ways: where they stand, up to the closing brace,
and alone, up to the end of the input. `Enclosure.Pairs` relates the places of the two, and every
reader of an import or export clause that stays between the braces reads the same in both
(`Reader`).
-/

namespace ModuleGraph

/-- A pair of braces, the tokens behind it and the end of the input that stands for the closing
brace where the tokens between them are alone. They begin at `offset`. -/
structure Enclosure where
  offset : Nat
  opening : Token
  closing : Token
  after : List Token
  ending : Token
  opening_kind : opening.kind = .leftBrace
  closing_kind : closing.kind = .rightBrace
  ending_kind : ending.kind = .endOfInput
  ending_newline : ending.newlineBefore = closing.newlineBefore
  after_ne_nil : after ≠ []

namespace Enclosure

/-- The place before `ts` between the braces. -/
def inside (e : Enclosure) (previous : Option Token) : List Token → TokenStream
  | [] => ⟨some (previous.elim e.opening (Token.shift e.offset)), e.closing, e.after⟩
  | t :: ts => ⟨some (previous.elim e.opening (Token.shift e.offset)), t.shift e.offset,
      ts.map (Token.shift e.offset) ++ e.closing :: e.after⟩

/-- The place before `ts` where the tokens between the braces are alone. -/
def alone (e : Enclosure) (previous : Option Token) : List Token → TokenStream
  | [] => ⟨previous, e.ending, []⟩
  | t :: ts => ⟨previous, t, ts ++ [e.ending]⟩

/-- A place between the braces, `s`, is the same place as `s₀` among the tokens alone. -/
inductive Pairs (e : Enclosure) : TokenStream → TokenStream → Prop where
  | mk (previous : Option Token) (ts : List Token) :
      Pairs e (e.inside previous ts) (e.alone previous ts)

variable {e : Enclosure} {s s₀ : TokenStream}

@[simp] theorem advance_inside (e : Enclosure) (previous : Option Token) (t : Token)
    (ts : List Token) : (e.inside previous (t :: ts)).advance = e.inside (some t) ts := by
  cases ts <;> rfl

@[simp] theorem advance_alone (e : Enclosure) (previous : Option Token) (t : Token)
    (ts : List Token) : (e.alone previous (t :: ts)).advance = e.alone (some t) ts := by
  cases ts <;> rfl

@[simp] theorem kind_inside_nil (e : Enclosure) (previous : Option Token) :
    (e.inside previous []).kind = .rightBrace :=
  e.closing_kind

@[simp] theorem kind_alone_nil (e : Enclosure) (previous : Option Token) :
    (e.alone previous []).kind = .endOfInput :=
  e.ending_kind

@[simp] theorem kind_inside_cons (e : Enclosure) (previous : Option Token) (t : Token)
    (ts : List Token) : (e.inside previous (t :: ts)).kind = t.kind :=
  rfl

@[simp] theorem kind_alone_cons (e : Enclosure) (previous : Option Token) (t : Token)
    (ts : List Token) : (e.alone previous (t :: ts)).kind = t.kind :=
  rfl

/-- Ahead of a place between the braces are the tokens up to the closing one and those behind it. -/
theorem length_inside (e : Enclosure) (previous : Option Token) (ts : List Token) :
    (e.inside previous ts).ahead.length = ts.length + e.after.length := by
  cases ts <;> simp [inside]
  omega

/-- Behind the closing brace fewer tokens are ahead than at it. -/
theorem length_advance_inside_nil (e : Enclosure) (previous : Option Token) :
    (e.inside previous []).advance.ahead.length < e.after.length := by
  have h := e.after_ne_nil
  cases hafter : e.after with
  | nil => exact absurd hafter h
  | cons t ts => simp [inside, TokenStream.advance, hafter]

namespace Pairs

/-- Both places move on together as long as the braces are not left. -/
theorem advance (h : e.Pairs s s₀) (hlength : e.after.length ≤ s.advance.ahead.length) :
    e.Pairs s.advance s₀.advance ∧ s.current = s₀.current.shift e.offset := by
  obtain ⟨previous, ts⟩ := h
  cases ts with
  | nil =>
      have := e.length_advance_inside_nil previous
      omega
  | cons t ts =>
      rw [advance_inside, advance_alone]
      exact ⟨.mk .., rfl⟩

/-- Paired tokens are of one kind as long as the closing brace has not been passed. -/
theorem kind_eq (h : e.Pairs s s₀) (hlength : e.after.length ≤ s.advance.ahead.length) :
    s₀.kind = s.kind := by
  have := (h.advance hlength).2
  rw [TokenStream.kind, TokenStream.kind, this, Token.shift_kind]

/-- At the closing brace the tokens alone end. -/
theorem kind_of_length_eq (h : e.Pairs s s₀) (hlength : s.ahead.length = e.after.length) :
    s₀.kind = .endOfInput := by
  obtain ⟨previous, _ | ⟨t, ts⟩⟩ := h
  · exact kind_alone_nil e previous
  · rw [length_inside, List.length_cons] at hlength
    omega

/-- Paired tokens agree in every kind but those that end them. -/
theorem kind_iff (h : e.Pairs s s₀) {k : Token.Kind} (hbrace : k ≠ .rightBrace)
    (hend : k ≠ .endOfInput) : s₀.kind = k ↔ s.kind = k := by
  obtain ⟨previous, _ | ⟨t, ts⟩⟩ := h
  · simp [hbrace.symm, hend.symm]
  · simp

/-- The tokens alone end where those between the braces do. -/
theorem ends_iff (h : e.Pairs s s₀) : (s₀.kind = .rightBrace ∨ s₀.kind = .endOfInput) ↔
    (s.kind = .rightBrace ∨ s.kind = .endOfInput) := by
  obtain ⟨previous, _ | ⟨t, ts⟩⟩ := h <;> simp

/-- A token before a place alone stands, moved, before the paired place. -/
theorem previous_eq (h : e.Pairs s s₀) {t : Token} (ht : s₀.previous = some t) :
    s.previous = some (t.shift e.offset) := by
  obtain ⟨previous, ts⟩ := h
  cases ts <;> cases ht <;> rfl

/-- Paired tokens agree in whether a line ends before them. -/
theorem newlineBefore_eq (h : e.Pairs s s₀) :
    s₀.current.newlineBefore = s.current.newlineBefore := by
  obtain ⟨previous, _ | ⟨t, ts⟩⟩ := h
  · exact e.ending_newline
  · rfl

/-- The tokens go on behind any token but a closing brace. -/
theorem advance_of_kind (h : e.Pairs s s₀) (hkind : s.kind ≠ .rightBrace) :
    e.Pairs s.advance s₀.advance := by
  obtain ⟨previous, _ | ⟨t, ts⟩⟩ := h
  · exact absurd (kind_inside_nil e previous) hkind
  · rw [advance_inside, advance_alone]
    exact .mk ..

/-- Before the closing brace, paired tokens are of one kind. -/
theorem kind_eq_of_ne (h : e.Pairs s s₀) (hkind : s.kind ≠ .rightBrace) : s₀.kind = s.kind := by
  obtain ⟨previous, _ | ⟨t, ts⟩⟩ := h
  · exact absurd (kind_inside_nil e previous) hkind
  · rfl

/-- Before the closing brace, paired tokens are the same but for the offset. -/
theorem current_eq (h : e.Pairs s s₀) (hkind : s.kind ≠ .rightBrace) :
    s.current = s₀.current.shift e.offset := by
  obtain ⟨previous, _ | ⟨t, ts⟩⟩ := h
  · exact absurd (kind_inside_nil e previous) hkind
  · rfl

/-- Behind a token that stands alone there is one before. -/
theorem isSome_previous (h : e.Pairs s s₀) (hkind : s.kind ≠ .rightBrace) :
    s₀.advance.previous.isSome := by
  obtain ⟨previous, _ | ⟨t, ts⟩⟩ := h
  · exact absurd (kind_inside_nil e previous) hkind
  · rw [advance_alone]
    cases ts <;> rfl

/-- The tokens between two places are the same between the braces and alone. -/
theorem kinds_eq {s' s₀' : TokenStream} (h : e.Pairs s s₀) (h' : e.Pairs s' s₀') :
    (s₀.toList.take (s₀.ahead.length - s₀'.ahead.length)).map Token.kind =
      (s.toList.take (s.ahead.length - s'.ahead.length)).map Token.kind := by
  obtain ⟨previous, ts⟩ := h
  obtain ⟨previous', ts'⟩ := h'
  have hinside : (e.inside previous ts).toList = ts.map (Token.shift e.offset) ++
      e.closing :: e.after := by cases ts <;> rfl
  have halone : (e.alone previous ts).toList = ts ++ [e.ending] := by cases ts <;> rfl
  have hlength : ∀ (previous : Option Token) (ts : List Token),
      (e.alone previous ts).ahead.length = ts.length := by
    intro previous ts
    cases ts <;> simp [alone]
  have htake : ts.length + e.after.length - (ts'.length + e.after.length) =
      ts.length - ts'.length := by omega
  rw [hinside, halone, length_inside, length_inside, hlength, hlength, htake,
    List.take_append_of_le_length (by omega),
    List.take_append_of_le_length (by rw [List.length_map]; omega), ← List.map_take, List.map_map]
  rfl

end Pairs

/-! ### Looking ahead -/

/-- The places have the same tokens ahead between the braces. -/
theorem alike (e : Enclosure) : Alike e.Pairs where
  kind_eq h := h.kind_eq_of_ne
  ends h hkind := h.ends_iff.2 (.inl hkind)
  advance h := h.advance_of_kind
  newlineBefore_eq h hkind _ := (h.advance_of_kind hkind).newlineBefore_eq
  afterMemberAccess_eq := by
    rintro _ _ ⟨previous, ts⟩
    cases ts <;> cases previous <;>
      simp [TokenStream.afterMemberAccess, inside, alone, e.opening_kind]

namespace Pairs

/-- Paired places agree in the keyword that stands there. -/
theorem atKeyword_eq (h : e.Pairs s s₀) (k : Keyword) : s₀.atKeyword k = s.atKeyword k :=
  e.alike.atKeyword_eq h k

/-- Paired places agree in the identifier that stands there. -/
theorem identifier?_eq (h : e.Pairs s s₀) :
    TokenStream.identifier? s₀.kind = TokenStream.identifier? s.kind :=
  e.alike.read?_eq h rfl rfl

/-- Paired places agree in whether an import declaration starts there. -/
theorem atImport_eq (h : e.Pairs s s₀) : s₀.atImport = s.atImport :=
  e.alike.atImport_eq h

/-- Paired places agree in whether a module declaration starts there. -/
theorem atModule_eq (h : e.Pairs s s₀) : s₀.atModule = s.atModule :=
  e.alike.atModule_eq h

/-- Paired places agree in whether a module without a name starts there. -/
theorem atAnonymousModule_eq (h : e.Pairs s s₀) : s₀.atAnonymousModule = s.atAnonymousModule :=
  e.alike.atAnonymousModule_eq h

/-- Paired places agree in whether a statement starts there that ends code. -/
theorem startsHere_eq (h : e.Pairs s s₀) : Parser.startsHere s₀ = Parser.startsHere s :=
  e.alike.startsHere_eq h fun _ => h.newlineBefore_eq

/-- Paired places agree in whether a function or class starts there. -/
theorem atFunctionOrClass_eq (h : e.Pairs s s₀) : s₀.atFunctionOrClass = s.atFunctionOrClass :=
  e.alike.atFunctionOrClass_eq h

/-- Paired places agree in the name of a function or class there. -/
theorem declaredName?_eq (h : e.Pairs s s₀) : s₀.declaredName? = s.declaredName? :=
  e.alike.declaredName?_eq h

end Pairs

end Enclosure

end ModuleGraph
