import ModuleGraph.Proofs.Bodies
import ModuleGraph.Statement.Parser

/-!
# Moving through tokens

How far the readers of single tokens and of import and export clauses move. All of them go forward
(`TokenStream.Follows`), and the readers of lists accept with every budget that is more than the
tokens they read.
-/

namespace ModuleGraph

/-- A token of two lists is in the first or in the second one. -/
theorem exists_of_append_eq {α : Type} {a : α} {as bs pre mid : List α}
    (h : as ++ bs = pre ++ a :: mid) :
    (∃ mid', as = pre ++ a :: mid' ∧ mid = mid' ++ bs) ∨
      ∃ pre', pre = as ++ pre' ∧ bs = pre' ++ a :: mid := by
  induction as generalizing pre with
  | nil => exact .inr ⟨pre, rfl, h⟩
  | cons b as ih =>
      cases pre with
      | nil =>
          cases h
          exact .inl ⟨as, rfl, rfl⟩
      | cons c pre =>
          obtain ⟨rfl, htail⟩ := List.cons.inj h
          obtain ⟨mid', rfl, rfl⟩ | ⟨pre', rfl, rfl⟩ := ih htail
          · exact .inl ⟨mid', rfl, rfl⟩
          · exact .inr ⟨pre', rfl, rfl⟩

namespace TokenStream

variable {s s' s'' : TokenStream}

/-- The stream `s'` is at or behind `s` among the same tokens. -/
def Follows (s' s : TokenStream) : Prop :=
  s'.toList <:+ s.toList

/-- A place follows itself. -/
theorem Follows.refl (s : TokenStream) : s.Follows s :=
  List.suffix_rfl

/-- Following is transitive. -/
theorem Follows.trans (h : s''.Follows s') (h' : s'.Follows s) : s''.Follows s :=
  List.IsSuffix.trans h h'

/-- No more tokens are ahead at a place that follows another one. -/
theorem Follows.length_le (h : s'.Follows s) : s'.ahead.length ≤ s.ahead.length := by
  have := List.IsSuffix.length_le h
  simpa [toList] using this

/-- The place behind the current token follows the place in front of it. -/
theorem follows_advance (s : TokenStream) : s.advance.Follows s := by
  unfold Follows advance
  split
  · exact List.suffix_rfl
  · next t ts h =>
      rw [toList, toList, h]
      exact List.suffix_cons ..

/-- Behind a token there is a token before. -/
theorem isSome_previous_advance (h : s.previous.isSome) : s.advance.previous.isSome := by
  unfold advance
  split
  · exact h
  · rfl

/-- What follows the place behind a token follows the place in front of it. -/
theorem Follows.of_advance (h : s'.Follows s.advance) : s'.Follows s :=
  h.trans (follows_advance s)

/-- The last token ends the input. -/
def Closed (s : TokenStream) : Prop :=
  ∃ before last, s.toList = before ++ [last] ∧ last.kind = .endOfInput

/-- The tokens from a later place on end as those from an earlier one do. -/
theorem Closed.of_follows (hs : s.Closed) (h : s'.Follows s) : s'.Closed := by
  obtain ⟨before, last, htokens, hlast⟩ := hs
  obtain ⟨read, hread⟩ := h
  rw [htokens, toList] at hread
  obtain ⟨more, -, hmore⟩ | ⟨more, -, hmore⟩ := List.append_eq_append_iff.1 hread
  · exact ⟨more, last, hmore, hlast⟩
  · cases more with
    | nil => exact ⟨[], last, hmore.symm, hlast⟩
    | cons t more => simp at hmore

/-- Where the current token does not end the input, another one is ahead. -/
theorem Closed.toList_eq (hs : s.Closed) (h : s.kind ≠ .endOfInput) :
    s.toList = s.current :: s.advance.toList := by
  obtain ⟨before, last, htokens, hlast⟩ := hs
  cases hahead : s.ahead with
  | nil =>
      rw [toList, hahead] at htokens
      cases before with
      | nil =>
          cases htokens
          exact absurd hlast h
      | cons t before => simp at htokens
  | cons t ts => simp [toList, advance, hahead]

/-- Behind a token that is not the end of the input one token less is ahead. -/
theorem Closed.length_advance (hs : s.Closed) (h : s.kind ≠ .endOfInput) :
    s.ahead.length = s.advance.ahead.length + 1 := by
  have := congrArg List.length (hs.toList_eq h)
  simpa [toList] using this

/-! ## Single tokens -/

/-- To stand at a word is to have it as the identifier that comes next. -/
theorem atWord_iff {word : String} : s.atWord word = true ↔ s.kind = .identifier word := by
  simp [atWord, Token.isWord, kind]

/-- A kind that stands for nothing is not the one that something is read from. -/
theorem kind_ne_of_read? {α : Type} {read? : Token.Kind → Option α} {a : α} {k : Token.Kind}
    (hread : read? s.kind = some a) (hk : read? k = none) : s.kind ≠ k := by
  rintro rfl
  rw [hk] at hread
  cases hread

/-- An unexpected token is reported where it stands. -/
theorem unexpected_span (expectation : Expectation) (s : TokenStream) :
    (s.unexpected expectation).span = s.current.span := by
  unfold unexpected
  split <;> rfl

/-- Consumes a token of a kind that stands for something. -/
def accept {α : Type} (read? : Token.Kind → Option α) (expectation : Expectation)
    (s : TokenStream) : Except SyntaxFault (α × TokenStream) :=
  match read? s.kind with
  | some a => .ok (a, s.advance)
  | none => .error (s.unexpected expectation)

/-- An accepted token stands for what is read, and is the only one that is consumed. -/
theorem accept_eq_ok {α : Type} {read? : Token.Kind → Option α} {expectation : Expectation}
    {a : α} (h : accept read? expectation s = .ok (a, s')) :
    read? s.kind = some a ∧ s' = s.advance := by
  unfold accept at h
  split at h <;> cases h
  exact ⟨‹_›, rfl⟩

/-- The name of an identifier. -/
def identifier? : Token.Kind → Option String
  | .identifier name => some name
  | _ => none

/-- The name that a token stands for in an import or export clause. -/
def exportName? : Token.Kind → Option String
  | .identifier name | .string name => some name
  | .keyword k => some k.word
  | _ => none

/-- The specifier that a token stands for. -/
def specifier? : Token.Kind → Option Specifier
  | .string url => some (.url url)
  | .identifier name => some (.fragment name)
  | _ => none

/-- Whether a token is the given one. -/
def only (kind : Token.Kind) (kind' : Token.Kind) : Option Unit :=
  if kind' = kind then some () else none

/-- Reading an identifier accepts a token that is one. -/
theorem expectIdentifier_eq (s : TokenStream) :
    s.expectIdentifier = accept identifier? .identifier s := by
  unfold expectIdentifier accept identifier?
  split <;> simp_all

/-- Reading an export name accepts a token that stands for one. -/
theorem expectExportName_eq (s : TokenStream) :
    s.expectExportName = accept exportName? .exportName s := by
  unfold expectExportName accept exportName?
  split <;> simp_all

/-- Reading a specifier accepts a token that stands for one. -/
theorem expectSpecifier_eq (s : TokenStream) :
    s.expectSpecifier = accept specifier? .specifier s := by
  unfold expectSpecifier accept specifier?
  split <;> simp_all

/-- Reading a word accepts the identifier that is spelled so. -/
theorem expectWord_eq (word : String) (s : TokenStream) :
    s.expectWord word = (accept (only (.identifier word)) (.word word) s).map Prod.snd := by
  unfold expectWord accept only
  by_cases h : s.kind = .identifier word
  · simp [atWord_iff.2 h, h, Except.map]
  · simp [atWord_iff, h, Except.map]

/-- An expected token is the current one, and the reader moves on behind it. -/
theorem expect_eq_ok {kind : Token.Kind} {t : Token} (h : s.expect kind = .ok (t, s')) :
    s.kind = kind ∧ t = s.current ∧ s' = s.advance := by
  unfold expect at h
  split at h
  · cases h
    exact ⟨‹_›, rfl, rfl⟩
  · cases h

/-! ## Looking ahead -/

/-- A token is a name just if it stands for an identifier. -/
theorem isName_eq (t : Token) : isName t = (identifier? t.kind).isSome := by
  unfold isName identifier?
  cases t.kind <;> rfl

/-- The word of a module declaration is an identifier. -/
theorem kind_of_atModuleWord (h : s.atModuleWord = true) : s.kind = .identifier "module" := by
  rw [atModuleWord, Bool.and_eq_true] at h
  exact atWord_iff.1 h.1

/-- To stand at a keyword is to have it as the next token. -/
theorem atKeyword_iff {k : Keyword} : s.atKeyword k = true ↔ s.kind = .keyword k := by
  simp [atKeyword]

/-- An import declaration starts with its keyword. -/
theorem kind_of_atImport (h : s.atImport = true) : s.kind = .keyword .«import» := by
  rw [atImport, Bool.and_eq_true, Bool.and_eq_true] at h
  exact atKeyword_iff.1 h.1.1

/-- A module declaration starts with its word. -/
theorem kind_of_atModule (h : s.atModule = true) : s.kind = .identifier "module" := by
  simp only [atModule, Bool.and_eq_true] at h
  exact kind_of_atModuleWord h.1.1.1

/-- A module declaration without a name starts with its word, too. -/
theorem kind_of_atAnonymousModule (h : s.atAnonymousModule = true) :
    s.kind = .identifier "module" := by
  simp only [atAnonymousModule, Bool.and_eq_true] at h
  exact kind_of_atModuleWord h.1.1

/-- What ends a run of code on a new line is an import, an export or a module. -/
theorem kind_of_startsHere (h : Parser.startsHere s = true) : s.kind = .keyword .«import» ∨
    s.kind = .keyword .«export» ∨ s.kind = .identifier "module" := by
  simp only [Parser.startsHere, Bool.and_eq_true, Bool.or_eq_true] at h
  rcases h.2 with (himport | hexport) | hmodule
  · exact .inl (kind_of_atImport himport)
  · exact .inr (.inl (atKeyword_iff.1 hexport))
  · exact .inr (.inr (kind_of_atModule hmodule))

/-- The name of the function or class whose keyword is the current token. -/
def nameBehind? (s : TokenStream) : Option String :=
  match s.kind with
  | .keyword .«function» =>
    identifier? (if s.advance.kind = .star then s.advance.advance.kind else s.advance.kind)
  | .keyword .«class» => identifier? s.advance.kind
  | _ => none

/-- The name of a function is behind its keyword, or behind the star of a generator. -/
theorem nameBehind?_function (h : s.kind = .keyword .«function») : s.nameBehind? =
    identifier? (if s.advance.kind = .star then s.advance.advance.kind else s.advance.kind) := by
  rw [nameBehind?, h]

/-- The name of a class is behind its keyword. -/
theorem nameBehind?_class (h : s.kind = .keyword .«class») :
    s.nameBehind? = identifier? s.advance.kind := by
  rw [nameBehind?, h]

/-- Behind any other token stands no name of a function or class. -/
theorem nameBehind?_other (hfunction : s.kind ≠ .keyword .«function»)
    (hclass : s.kind ≠ .keyword .«class») : s.nameBehind? = none := by
  unfold nameBehind?
  split
  · exact absurd ‹_› hfunction
  · exact absurd ‹_› hclass
  · rfl

/-- The name of an exported function or class is behind its keyword, with or without `async`. -/
theorem declaredName?_eq (s : TokenStream) : s.declaredName? =
    nameBehind? (if s.atWord "async" && !s.second.newlineBefore then s.advance else s) := by
  unfold declaredName?
  dsimp only
  generalize (if s.atWord "async" && !s.second.newlineBefore then s.advance else s) = s
  split
  · next h =>
      rw [nameBehind?_function h]
      by_cases hstar : s.advance.kind = .star
      · have hsecond : (s.second.kind == .star) = true := beq_iff_eq.2 hstar
        rw [hsecond, if_pos hstar]
        rfl
      · have hsecond : (s.second.kind == .star) = false := beq_eq_false_iff_ne.2 hstar
        rw [hsecond, if_neg hstar]
        rfl
  · next h =>
      rw [nameBehind?_class h]
      rfl
  · next hfunction hclass => rw [nameBehind?_other hfunction hclass]

end TokenStream

end ModuleGraph
