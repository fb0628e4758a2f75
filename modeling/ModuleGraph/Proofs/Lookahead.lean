import ModuleGraph.Proofs.Streams

/-!
# Looking ahead

What starts at a place is decided by a few tokens ahead, none of them behind a closing brace. So it
is the same at places where the same tokens are ahead up to a closing brace (`Alike`).
-/

namespace ModuleGraph

open TokenStream

/-- The related places have the same tokens ahead, up to a closing brace at the first place. At the
second one the input may end there. -/
structure Alike (R : TokenStream → TokenStream → Prop) : Prop where
  kind_eq : ∀ {s s₀ : TokenStream}, R s s₀ → s.kind ≠ .rightBrace → s₀.kind = s.kind
  ends : ∀ {s s₀ : TokenStream}, R s s₀ → s.kind = .rightBrace →
    s₀.kind = .rightBrace ∨ s₀.kind = .endOfInput
  advance : ∀ {s s₀ : TokenStream}, R s s₀ → s.kind ≠ .rightBrace → R s.advance s₀.advance
  newlineBefore_eq : ∀ {s s₀ : TokenStream}, R s s₀ → s.kind ≠ .rightBrace →
    s.advance.kind ≠ .rightBrace → s₀.second.newlineBefore = s.second.newlineBefore
  afterMemberAccess_eq : ∀ {s s₀ : TokenStream}, R s s₀ →
    s₀.afterMemberAccess = s.afterMemberAccess

namespace Alike

variable {R : TokenStream → TokenStream → Prop} {s s₀ : TokenStream}

/-- Related places agree in every kind but those that end them. -/
theorem kind_iff (hR : Alike R) (h : R s s₀) {k : Token.Kind} (hbrace : k ≠ .rightBrace)
    (hend : k ≠ .endOfInput) : s₀.kind = k ↔ s.kind = k := by
  by_cases hkind : s.kind = .rightBrace
  · obtain hkind₀ | hkind₀ := hR.ends h hkind <;>
      simp [hkind, hkind₀, hbrace.symm, hend.symm]
  · rw [hR.kind_eq h hkind]

/-- Related places agree in comparing their kind with any but those that end them. -/
theorem kind_beq (hR : Alike R) (h : R s s₀) {k : Token.Kind} (hbrace : k ≠ .rightBrace)
    (hend : k ≠ .endOfInput) : (s₀.kind == k) = (s.kind == k) := by
  rw [Bool.eq_iff_iff, beq_iff_eq, beq_iff_eq, hR.kind_iff h hbrace hend]

/-- Related places agree in the keyword that stands there. -/
theorem atKeyword_eq (hR : Alike R) (h : R s s₀) (k : Keyword) :
    s₀.atKeyword k = s.atKeyword k :=
  hR.kind_beq h (by simp) (by simp)

/-- Related places agree in the word that stands there. -/
theorem atWord_eq (hR : Alike R) (h : R s s₀) (word : String) : s₀.atWord word = s.atWord word :=
  hR.kind_beq h (by simp) (by simp)

/-- What a kind stands for is the same at both places if it is nothing for the kinds that end a
body. -/
theorem read?_eq {α : Type} (hR : Alike R) (h : R s s₀) {read? : Token.Kind → Option α}
    (hbrace : read? .rightBrace = none) (hend : read? .endOfInput = none) :
    read? s₀.kind = read? s.kind := by
  by_cases hkind : s.kind = .rightBrace
  · obtain hkind₀ | hkind₀ := hR.ends h hkind <;> simp [hkind, hkind₀, hbrace, hend]
  · rw [hR.kind_eq h hkind]

/-- Related places agree in whether an import declaration starts there. -/
theorem atImport_eq (hR : Alike R) (h : R s s₀) : s₀.atImport = s.atImport := by
  rw [TokenStream.atImport, TokenStream.atImport, hR.atKeyword_eq h]
  cases hkeyword : s.atKeyword .«import» with
  | false => rfl
  | true =>
      have hsecond := hR.advance h (by simp [atKeyword_iff.1 hkeyword])
      have hparen := hR.kind_beq hsecond (k := .leftParen) (by simp) (by simp)
      have hdot := hR.kind_beq hsecond (k := .dot) (by simp) (by simp)
      show (true && !(s₀.advance.kind == .leftParen) && !(s₀.advance.kind == .dot)) =
        (true && !(s.advance.kind == .leftParen) && !(s.advance.kind == .dot))
      rw [hparen, hdot]

/-- Related places agree in whether the word of a module stands there. -/
theorem atModuleWord_eq (hR : Alike R) (h : R s s₀) : s₀.atModuleWord = s.atModuleWord := by
  rw [TokenStream.atModuleWord, TokenStream.atModuleWord, hR.atWord_eq h,
    hR.afterMemberAccess_eq h]

/-- Related places agree in whether a module declaration starts there. -/
theorem atModule_eq (hR : Alike R) (h : R s s₀) : s₀.atModule = s.atModule := by
  rw [TokenStream.atModule, TokenStream.atModule, hR.atModuleWord_eq h, TokenStream.isName_eq,
    TokenStream.isName_eq]
  cases hword : s.atModuleWord with
  | false => rfl
  | true =>
      have hbrace : s.kind ≠ .rightBrace := by simp [TokenStream.kind_of_atModuleWord hword]
      have hsecond := hR.advance h hbrace
      have hname : identifier? s₀.second.kind = identifier? s.second.kind :=
        hR.read?_eq hsecond rfl rfl
      rw [hname]
      cases hidentifier : identifier? s.second.kind with
      | none => rfl
      | some name =>
          have hkind : s.advance.kind ≠ .rightBrace := by
            intro hkind
            have hkind' : s.second.kind = .rightBrace := hkind
            simp [hkind', identifier?] at hidentifier
          have hthird : (s₀.third.kind == .leftBrace) = (s.third.kind == .leftBrace) :=
            hR.kind_beq (hR.advance hsecond hkind) (by simp) (by simp)
          rw [hR.newlineBefore_eq h hbrace hkind, hthird]

/-- Related places agree in whether a module without a name starts there. -/
theorem atAnonymousModule_eq (hR : Alike R) (h : R s s₀) :
    s₀.atAnonymousModule = s.atAnonymousModule := by
  rw [TokenStream.atAnonymousModule, TokenStream.atAnonymousModule, hR.atModuleWord_eq h]
  cases hword : s.atModuleWord with
  | false => rfl
  | true =>
      have hbrace : s.kind ≠ .rightBrace := by simp [TokenStream.kind_of_atModuleWord hword]
      have hopen : (s₀.second.kind == .leftBrace) = (s.second.kind == .leftBrace) :=
        hR.kind_beq (hR.advance h hbrace) (by simp) (by simp)
      rw [hopen]
      cases hkind : s.second.kind == .leftBrace with
      | false => rfl
      | true =>
          have hline := hR.newlineBefore_eq h hbrace (by
            rw [show s.advance.kind = .leftBrace from beq_iff_eq.1 hkind]
            simp)
          rw [hline]

/-- A statement other than code starts on a new line at both places or at none, where the current
tokens agree about the line. -/
theorem startsHere_eq (hR : Alike R) (h : R s s₀)
    (hline : s.kind ≠ .rightBrace → s₀.current.newlineBefore = s.current.newlineBefore) :
    Parser.startsHere s₀ = Parser.startsHere s := by
  rw [Parser.startsHere, Parser.startsHere, hR.atImport_eq h, hR.atKeyword_eq h, hR.atModule_eq h]
  cases hstarts : s.atImport || s.atKeyword .«export» || s.atModule with
  | false => rw [Bool.and_false, Bool.and_false]
  | true =>
      rw [hline]
      simp only [Bool.or_eq_true] at hstarts
      rcases hstarts with (himport | hexport) | hmodule
      · simp [kind_of_atImport himport]
      · simp [atKeyword_iff.1 hexport]
      · simp [kind_of_atModule hmodule]

/-- Related places agree in whether a function or class starts there. -/
theorem atFunctionOrClass_eq (hR : Alike R) (h : R s s₀) :
    s₀.atFunctionOrClass = s.atFunctionOrClass := by
  unfold TokenStream.atFunctionOrClass
  rw [hR.atWord_eq h]
  cases hasync : s.atWord "async" with
  | false =>
      have hfunction := hR.kind_beq h (k := .keyword .«function») (by simp) (by simp)
      have hclass := hR.kind_beq h (k := .keyword .«class») (by simp) (by simp)
      show (s₀.kind == _ || s₀.kind == _) = (s.kind == _ || s.kind == _)
      rw [hfunction, hclass]
  | true =>
      have hsecond := hR.advance h (by simp [TokenStream.atWord_iff.1 hasync])
      have hfunction := hR.kind_beq hsecond (k := .keyword .«function») (by simp) (by simp)
      have hclass := hR.kind_beq hsecond (k := .keyword .«class») (by simp) (by simp)
      show (s₀.advance.kind == _ || s₀.advance.kind == _) =
        (s.advance.kind == _ || s.advance.kind == _)
      rw [hfunction, hclass]

/-- Related places agree in the name behind a keyword there. -/
theorem nameBehind?_eq (hR : Alike R) (h : R s s₀) : nameBehind? s₀ = nameBehind? s := by
  by_cases hfunction : s.kind = .keyword .«function»
  · have hfunction₀ := (hR.kind_iff h (by simp) (by simp)).2 hfunction
    have hsecond := hR.advance h (by simp [hfunction])
    rw [TokenStream.nameBehind?_function hfunction, TokenStream.nameBehind?_function hfunction₀]
    by_cases hstar : s.advance.kind = .star
    · have hstar₀ := (hR.kind_iff hsecond (by simp) (by simp)).2 hstar
      rw [if_pos hstar, if_pos hstar₀]
      exact hR.read?_eq (hR.advance hsecond (by simp [hstar])) rfl rfl
    · have hstar₀ := mt (hR.kind_iff hsecond (by simp) (by simp)).1 hstar
      rw [if_neg hstar, if_neg hstar₀]
      exact hR.read?_eq hsecond rfl rfl
  by_cases hclass : s.kind = .keyword .«class»
  · have hclass₀ := (hR.kind_iff h (by simp) (by simp)).2 hclass
    rw [TokenStream.nameBehind?_class hclass, TokenStream.nameBehind?_class hclass₀]
    exact hR.read?_eq (hR.advance h (by simp [hclass])) rfl rfl
  · rw [TokenStream.nameBehind?_other hfunction hclass, TokenStream.nameBehind?_other
      (mt (hR.kind_iff h (by simp) (by simp)).1 hfunction)
      (mt (hR.kind_iff h (by simp) (by simp)).1 hclass)]

/-- Related places agree in the name of a function or class there. -/
theorem declaredName?_eq (hR : Alike R) (h : R s s₀) : s₀.declaredName? = s.declaredName? := by
  rw [TokenStream.declaredName?_eq, TokenStream.declaredName?_eq, hR.atWord_eq h]
  cases hasync : s.atWord "async" with
  | false => exact hR.nameBehind?_eq h
  | true =>
      have hkind := TokenStream.atWord_iff.1 hasync
      have hbrace : s.kind ≠ .rightBrace := by simp [hkind]
      by_cases hclose : s.advance.kind = .rightBrace
      · -- neither `async` nor what ends the body is a function or class
        have hnone : ∀ (s : TokenStream) (b : Bool), s.kind = .identifier "async" →
            s.advance.kind = .rightBrace ∨ s.advance.kind = .endOfInput →
            nameBehind? (if b then s.advance else s) = none := by
          intro s b hkind hends
          cases b
          · exact TokenStream.nameBehind?_other (by simp [hkind]) (by simp [hkind])
          · obtain hends | hends := hends <;>
              exact TokenStream.nameBehind?_other (by simp [hends]) (by simp [hends])
        rw [hnone s _ hkind (.inl hclose),
          hnone s₀ _ ((hR.kind_eq h hbrace).trans hkind) (hR.ends (hR.advance h hbrace) hclose)]
      · rw [hR.newlineBefore_eq h hbrace hclose]
        split
        · exact hR.nameBehind?_eq (hR.advance h hbrace)
        · exact hR.nameBehind?_eq h

end Alike

end ModuleGraph
