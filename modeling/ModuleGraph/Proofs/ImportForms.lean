import ModuleGraph.Proofs.ClauseTokens
import ModuleGraph.Proofs.TokenTexts
import Mathlib.Data.List.Chain

/-!
# The forms of an import declaration

Which tokens an import declaration may consist of (`ImportForm`): a string alone, or what is bound,
`from` and a specifier. A local name is an identifier and never a reserved word, so that a reserved
word or a string can only be imported under another name.

The parser accepts two forms more: nothing behind the comma of a default binding, and a reserved
word or a string that is bound under its own name. Apart from these, what it accepts has one of the
forms (`Parser.importDeclaration_form`).
-/

namespace ModuleGraph

open TokenStream ModuleGraph.Parser
open Token (Kind)

/-! ## Forms -/

namespace ImportForm

variable {lax : Prop}

/-- The tokens of a name between braces, and what it binds. Where the forms are lax, any name can
be bound under itself. -/
inductive Entry (lax : Prop) : List Kind → ImportBinding → Prop where
  | same (name : String) : Entry lax [.identifier name] (.named name name)
  | renamed {k : Kind} {imported : String} (himported : exportName? k = some imported)
      (localName : String) :
      Entry lax [k, .identifier "as", .identifier localName] (.named imported localName)
  | unnamed (hlax : lax) {k : Kind} {imported : String}
      (himported : exportName? k = some imported) :
      Entry lax [k] (.named imported imported)

/-- The tokens between braces, with commas between the names and perhaps one behind them. -/
inductive Entries (lax : Prop) : List Kind → List ImportBinding → Prop where
  | nil : Entries lax [] []
  | last {ks : List Kind} {b : ImportBinding} (hentry : Entry lax ks b) : Entries lax ks [b]
  | cons {ks more : List Kind} {b : ImportBinding} {bs : List ImportBinding}
      (hentry : Entry lax ks b) (hmore : Entries lax more bs) :
      Entries lax (ks ++ .comma :: more) (b :: bs)

/-- The tokens of what is bound besides a default binding. -/
inductive Further (lax : Prop) : List Kind → List ImportBinding → Prop where
  | namespace (localName : String) :
      Further lax [.star, .identifier "as", .identifier localName] [.namespace localName]
  | names {ks : List Kind} {bs : List ImportBinding} (hentries : Entries lax ks bs) :
      Further lax (.leftBrace :: ks ++ [.rightBrace]) bs

/-- The tokens of all that is bound. Where the forms are lax, nothing has to follow the comma
behind a default binding. -/
inductive Clause (lax : Prop) : List Kind → List ImportBinding → Prop where
  | default (localName : String) : Clause lax [.identifier localName] [.default localName]
  | further {ks : List Kind} {bs : List ImportBinding} (hfurther : Further lax ks bs) :
      Clause lax ks bs
  | both (localName : String) {ks : List Kind} {bs : List ImportBinding}
      (hfurther : Further lax ks bs) :
      Clause lax (.identifier localName :: .comma :: ks) (.default localName :: bs)
  | dangling (hlax : lax) (localName : String) :
      Clause lax [.identifier localName, .comma] [.default localName]

end ImportForm

/-- The tokens of an import declaration between `import` and its attributes, the module that it
names and what it binds. -/
inductive ImportForm (lax : Prop) : List Kind → Specifier → List ImportBinding → Prop where
  | effect (url : String) : ImportForm lax [.string url] (.url url) []
  | fromSource {ks : List Kind} {bs : List ImportBinding} (hclause : ImportForm.Clause lax ks bs)
      {k : Kind} {source : Specifier} (hsource : specifier? k = some source) :
      ImportForm lax (ks ++ [.identifier "from", k]) source bs

/-- A token in front of the mark that ends a name between braces is no reserved word and no
string. -/
def ImportForm.Bound (k mark : Kind) : Prop :=
  mark = .comma ∨ mark = .rightBrace → (exportName? k).isSome → (identifier? k).isSome

instance : DecidableRel ImportForm.Bound :=
  fun k mark => inferInstanceAs (Decidable (mark = .comma ∨ mark = .rightBrace →
    (exportName? k).isSome → (identifier? k).isSome))

/-- The tokens between `import` and its attributes leave nothing out: something follows the comma
of a default binding, and what is bound under its own name is an identifier. -/
structure ImportForm.Explicit (ks : List Kind) : Prop where
  bindings : ∀ localName k, ks ≠ [.identifier localName, .comma, .identifier "from", k]
  locals : ks.IsChain ImportForm.Bound

namespace ImportForm

/-- An identifier may end a name. -/
theorem bound_identifier (name : String) (mark : Kind) : Bound (.identifier name) mark :=
  fun _ _ => rfl

/-- Any token may stand in front of one that ends no name. -/
theorem bound_of_not_mark {k mark : Kind} (hcomma : mark ≠ .comma) (hbrace : mark ≠ .rightBrace) :
    Bound k mark :=
  fun hmark => absurd hmark (by simp [hcomma, hbrace])

/-- A token that is no name may stand in front of any other. -/
theorem bound_of_not_name {k mark : Kind} (h : exportName? k = none) : Bound k mark :=
  fun _ hname => by simp [h] at hname

/-! ### Explicit forms -/

/-- A lax entry is a strict one if no reserved word and no string stands in front of the mark that
ends it. -/
theorem Entry.strict {ks : List Kind} {b : ImportBinding} {mark : Kind} (h : Entry True ks b)
    (hmark : mark = .comma ∨ mark = .rightBrace) (hlocals : (ks ++ [mark]).IsChain Bound) :
    Entry False ks b := by
  cases h with
  | same name => exact .same name
  | renamed himported localName => exact .renamed himported localName
  | @unnamed _ k imported himported =>
      have hname := (List.isChain_pair.1 hlocals) hmark (by simp [himported])
      obtain ⟨name, hk⟩ : ∃ name, k = .identifier name := by
        cases k <;> simp [identifier?] at hname
        exact ⟨_, rfl⟩
      subst hk
      obtain rfl : name = imported := Option.some.inj himported
      exact .same name

/-- Lax entries are strict ones if no reserved word and no string stands in front of a mark. -/
theorem Entries.strict {ks : List Kind} {bs : List ImportBinding} (h : Entries True ks bs)
    (hlocals : (ks ++ [Kind.rightBrace]).IsChain Bound) : Entries False ks bs := by
  induction h with
  | nil => exact .nil
  | last hentry => exact .last (hentry.strict (.inr rfl) hlocals)
  | cons hentry hmore ih =>
      rw [List.append_assoc, List.cons_append, List.isChain_split] at hlocals
      exact .cons (hentry.strict (.inl rfl) hlocals.1) (ih hlocals.2.of_cons)

/-- What is bound laxly is bound strictly if no reserved word and no string stands in front of a
mark. -/
theorem Further.strict {ks : List Kind} {bs : List ImportBinding} (h : Further True ks bs)
    (hlocals : ks.IsChain Bound) : Further False ks bs := by
  cases h with
  | «namespace» localName => exact .namespace localName
  | names hentries => exact .names (hentries.strict hlocals.of_cons)

/-- An explicit form is none of those that the parser accepts besides. -/
theorem strict {ks : List Kind} {source : Specifier} {bs : List ImportBinding}
    (h : ImportForm True ks source bs) (hexplicit : Explicit ks) :
    ImportForm False ks source bs := by
  cases h with
  | effect url => exact .effect url
  | @fromSource ks bs hclause k source hsource =>
      refine .fromSource ?_ hsource
      have hlocals := hexplicit.locals.left_of_append
      cases hclause with
      | default localName => exact .default localName
      | further hfurther => exact .further (hfurther.strict hlocals)
      | both localName hfurther => exact .both localName (hfurther.strict hlocals.of_cons.of_cons)
      | dangling _ localName => exact absurd rfl (hexplicit.bindings localName k)

/-- In a strict entry no reserved word and no string stands in front of the mark that ends it. -/
theorem Entry.bound {ks : List Kind} {b : ImportBinding} {mark : Kind} (h : Entry False ks b) :
    (ks ++ [mark]).IsChain Bound := by
  rcases h with name | ⟨himported, localName⟩ | hlax
  · simp [bound_identifier]
  · simp [bound_identifier, bound_of_not_mark]
  · exact hlax.elim

/-- In strict entries no reserved word and no string stands in front of a mark. -/
theorem Entries.bound {ks : List Kind} {bs : List ImportBinding} (h : Entries False ks bs) :
    (ks ++ [Kind.rightBrace]).IsChain Bound := by
  induction h with
  | nil => exact .singleton _
  | last hentry => exact hentry.bound
  | cons hentry hmore ih =>
      rw [List.append_assoc, List.cons_append, List.isChain_split, List.isChain_cons]
      exact ⟨hentry.bound, fun k _ => bound_of_not_name rfl, ih⟩

/-- In what is bound strictly no reserved word and no string stands in front of a mark. -/
theorem Further.bound {ks : List Kind} {bs : List ImportBinding} (h : Further False ks bs) :
    ks.IsChain Bound := by
  cases h with
  | «namespace» localName => simp [bound_of_not_mark]
  | names hentries =>
      rw [List.cons_append, List.isChain_cons]
      exact ⟨fun k _ => bound_of_not_name rfl, hentries.bound⟩

/-- A strict form leaves nothing out. -/
theorem explicit {ks : List Kind} {source : Specifier} {bs : List ImportBinding}
    (h : ImportForm False ks source bs) : Explicit ks := by
  cases h with
  | effect url => exact ⟨by simp, .singleton _⟩
  | @fromSource ks bs hclause k source hsource =>
      have hfrom : ∀ mark, Bound mark (.identifier "from") :=
        fun mark => bound_of_not_mark (by simp) (by simp)
      refine ⟨fun localName k' hks => ?_, ?_⟩
      · -- what stands in front of `from` and a specifier would be a name and a comma
        have hparts : ks ++ [.identifier "from", k] =
            [.identifier localName, .comma] ++ [.identifier "from", k'] := hks
        obtain ⟨rfl, -⟩ := List.append_inj' hparts rfl
        cases hclause with
        | further hfurther => cases hfurther
        | both _ hfurther => cases hfurther
        | dangling hlax => exact hlax
      · rw [List.isChain_split, List.isChain_pair]
        refine ⟨?_, bound_identifier _ _⟩
        have happend : ∀ {ks : List Kind}, ks.IsChain Bound →
            (ks ++ [Kind.identifier "from"]).IsChain Bound := fun h =>
          List.isChain_append.2 ⟨h, .singleton _, fun mark _ k hk => by
            obtain rfl := Option.some.inj hk
            exact hfrom mark⟩
        refine happend ?_
        cases hclause with
        | default localName => exact .singleton _
        | further hfurther => exact hfurther.bound
        | both localName hfurther =>
            rw [List.isChain_cons_cons, List.isChain_cons]
            exact ⟨bound_identifier _ _, fun k _ => bound_of_not_name rfl, hfurther.bound⟩
        | dangling hlax => exact hlax.elim

/-- Local names are names of identifiers. -/
theorem exists_identifier {ks : List Kind} {source : Specifier} {bs : List ImportBinding}
    (h : ImportForm False ks source bs) : ∀ b ∈ bs, .identifier b.localName ∈ ks := by
  -- an entry names its local name last; a clause is a name, its entries, or both
  have hentries : ∀ {ks bs}, Entries False ks bs → ∀ b ∈ bs, .identifier b.localName ∈ ks := by
    have hentry : ∀ {ks b}, Entry False ks b → .identifier b.localName ∈ ks := by
      rintro ks b (name | ⟨himported, localName⟩ | hlax)
      · simp [ImportBinding.localName]
      · simp [ImportBinding.localName]
      · exact hlax.elim
    intro ks bs h
    induction h with
    | nil => simp
    | last h => simpa using hentry h
    | cons h _ ih =>
        refine List.forall_mem_cons.2 ⟨List.mem_append_left _ (hentry h), fun b hb => ?_⟩
        exact List.mem_append_right _ (List.mem_cons_of_mem _ (ih b hb))
  have hfurther : ∀ {ks bs}, Further False ks bs → ∀ b ∈ bs, .identifier b.localName ∈ ks := by
    rintro ks bs (localName | h)
    · simp [ImportBinding.localName]
    · intro b hb
      simp [hentries h b hb]
  cases h with
  | effect url => simp
  | fromSource hclause =>
      intro b hb
      refine List.mem_append_left _ ?_
      cases hclause with
      | default localName =>
          obtain rfl := List.mem_singleton.1 hb
          exact List.mem_singleton_self _
      | further h => exact hfurther h b hb
      | both localName h =>
          obtain rfl | hb := List.mem_cons.1 hb
          · exact List.mem_cons_self
          · exact List.mem_cons_of_mem _ (List.mem_cons_of_mem _ (hfurther h b hb))
      | dangling hlax => exact hlax.elim

/-- A form in front of a single `from` ends behind the token that follows this `from`. -/
theorem eq_of_isPrefix {lax : Prop} {ks more : List Kind} {k : Kind} {source : Specifier}
    {bs : List ImportBinding} (h : ImportForm lax ks source bs) (front : List Kind)
    (hbegins : ks <+: front ++ .identifier "from" :: k :: more)
    (hhead : ∀ url, front.head? ≠ some (.string url))
    (hfront : .identifier "from" ∉ front) (hmore : .identifier "from" ∉ k :: more) :
    ks = front ++ [.identifier "from", k] := by
  obtain ⟨rest, hrest⟩ := hbegins
  cases h with
  | effect url =>
      cases front with
      | nil => cases hrest
      | cons k' front =>
          obtain rfl := (List.cons.inj hrest).1
          exact absurd rfl (hhead url)
  | @fromSource ks bs hclause k' source hsource =>
      rw [List.append_assoc] at hrest
      obtain ⟨rfl, -, hrest⟩ := (List.append_cons_inj_of_notMem hfront hmore).1 hrest.symm
      rw [(List.cons.inj hrest).1]

end ImportForm

/-! ## Identifiers of a text -/

namespace Token

/-- An identifier is no reserved word. -/
def Kind.IsUnreserved (k : Kind) : Prop :=
  ∀ name, k = .identifier name → Keyword.ofWord? name = none

/-- A token that is no identifier is unreserved. -/
theorem Kind.IsUnreserved.of_isIdentifier {k : Kind} (h : k.isIdentifier = false) :
    k.IsUnreserved := by
  rintro name rfl
  cases h

/-- A literal is no identifier. -/
theorem isUnreserved_kindOf {α : Type} {f : α → Kind} (h : ∀ a, (f a).isIdentifier = false)
    (r : Except LexicalFault α × Cursor) : (kindOf f r).1.IsUnreserved := by
  obtain ⟨_ | a, k⟩ := r
  · exact .of_isIdentifier rfl
  · exact .of_isIdentifier (h a)

/-- A word is an identifier only if it is not reserved. -/
theorem isUnreserved_wordKind (name : String) : (wordKind name).IsUnreserved := by
  intro name' h
  obtain rfl := name_of_wordKind h
  unfold wordKind at h
  split at h
  · cases h
  · assumption

/-- A private name is no identifier. -/
theorem isUnreserved_privateName (o : Nat) (cs : List Char) :
    (privateName o cs).1.IsUnreserved := by
  unfold privateName
  rw [Prod.map_fst]
  split <;> exact .of_isIdentifier rfl

/-- A regular expression is no identifier. -/
theorem isUnreserved_regExp (o : Nat) (cs : List Char) : (regExp o cs).1.IsUnreserved := by
  unfold regExp
  split <;> exact .of_isIdentifier rfl

/-- An operator is no identifier. -/
theorem isUnreserved_operator (o : Nat) (c : Char) (cs : List Char) :
    (operator o c cs).1.IsUnreserved := by
  unfold operator
  split
  · exact .of_isIdentifier rfl
  · dsimp only
    split
    · exact .of_isIdentifier rfl
    · split <;> exact .of_isIdentifier rfl

/-- An identifier that a text starts with is not reserved. -/
theorem isUnreserved_plain (afterOperand : Bool) (o : Nat) (c : Char) (cs : List Char) :
    (plain afterOperand o c cs).1.IsUnreserved := by
  by_cases hc : c ∈ marks
  · simp only [marks, List.mem_cons, List.not_mem_nil, or_false] at hc
    rcases hc with rfl | rfl | rfl | rfl | rfl | rfl | rfl | rfl | rfl | rfl | rfl | rfl
    -- brackets and separators
    iterate 8 exact .of_isIdentifier rfl
    · exact isUnreserved_kindOf (fun _ => rfl) _
    · exact isUnreserved_kindOf (fun _ => rfl) _
    · exact isUnreserved_privateName _ _
    · exact .of_isIdentifier rfl
  · rw [plain_of_not_mem_marks hc]
    split
    · exact .of_isIdentifier rfl
    split
    · exact .of_isIdentifier rfl
    split
    · exact isUnreserved_regExp _ _
    split
    · exact .of_isIdentifier rfl
    split
    · exact isUnreserved_wordKind _
    · exact isUnreserved_operator _ _ _

/-- An identifier in a text is not reserved. -/
theorem isUnreserved_next (afterOperand : Bool) (k : Cursor) :
    (next afterOperand k).1.kind.IsUnreserved := by
  unfold next
  split
  · exact .of_isIdentifier rfl
  · next newline o c cs heq =>
      have hkind : (significant afterOperand o c cs).1.IsUnreserved := by
        unfold significant
        split
        · exact isUnreserved_kindOf (fun _ => rfl) _
        · exact isUnreserved_plain _ _ _ _
      exact hkind

/-- The identifiers among the tokens of a text are no reserved words. -/
theorem isUnreserved_of_mem {text : List Char} {t : Token} (ht : t ∈ ofChars text) :
    t.kind.IsUnreserved := by
  have htokens : ∀ afterOperand k, ∀ t ∈ tokensFrom afterOperand k, t.kind.IsUnreserved := by
    intro afterOperand k
    induction afterOperand, k using tokensFrom.induct with
    | case1 afterOperand k t k' hnext hkind =>
        rw [tokensFrom_of_next hnext, if_pos hkind]
        exact List.forall_mem_singleton.2 (by simpa [hnext] using isUnreserved_next afterOperand k)
    | case2 afterOperand k t k' hnext hkind ih =>
        rw [tokensFrom_of_next hnext, if_neg hkind]
        exact List.forall_mem_cons.2
          ⟨by simpa [hnext] using isUnreserved_next afterOperand k, ih⟩
  exact htokens _ _ t ht

end Token

/-! ## What the parser accepts -/

namespace TokenStream

variable {s s' : TokenStream}

/-- A token that stands for something is passed. -/
theorem exists_of_accept {α : Type} {read? : Kind → Option α} {expectation : Expectation} {a : α}
    (hs : s.Closed) (hend : read? .endOfInput = none)
    (h : accept read? expectation s = .ok (a, s')) :
    ∃ t, s.Passes [t] s' ∧ read? t.kind = some a := by
  obtain ⟨hread, rfl⟩ := accept_eq_ok h
  exact ⟨s.current, .single hs (kind_ne_of_read? hread hend), hread⟩

/-- Reading an identifier passes this identifier only. -/
theorem exists_of_expectIdentifier {name : String} (hs : s.Closed)
    (h : s.expectIdentifier = .ok (name, s')) :
    ∃ t, s.Passes [t] s' ∧ t.kind = .identifier name := by
  rw [expectIdentifier_eq] at h
  obtain ⟨t, ht, hread⟩ := exists_of_accept hs rfl h
  refine ⟨t, ht, ?_⟩
  cases hkind : t.kind <;> simp [hkind, identifier?] at hread
  rw [hread]

/-- Reading a word passes this word only. -/
theorem exists_of_expectWord {word : String} (hs : s.Closed) (h : s.expectWord word = .ok s') :
    ∃ t, s.Passes [t] s' ∧ t.kind = .identifier word := by
  unfold expectWord at h
  split at h
  · next hat =>
      cases h
      have hkind : s.current.kind = .identifier word := atWord_iff.1 hat
      exact ⟨s.current, .single hs (by simp [atWord_iff.1 hat]), hkind⟩
  · cases h

end TokenStream

/-- A semicolon ends a statement, or else the place behind it does. -/
inductive EndsStatement : List Token → TokenStream → Prop where
  | semicolon {t : Token} (hkind : t.kind = .semicolon) (s : TokenStream) : EndsStatement [t] s
  | place {s : TokenStream} (hends : (s.kind = .rightBrace ∨ s.kind = .endOfInput) ∨
      s.current.newlineBefore = true) : EndsStatement [] s

namespace Parser

variable {s s' : TokenStream}

/-- The tokens of an imported name have one of the lax forms. -/
theorem exists_of_importedName {b : ImportBinding} (hs : s.Closed)
    (h : importedName s = .ok (b, s')) :
    ∃ ts, s.Passes ts s' ∧ ImportForm.Entry True (ts.map Token.kind) b := by
  obtain ⟨⟨imported, s₁⟩, hname, h⟩ := Except.bind_eq_ok h
  obtain ⟨⟨localName, s₂⟩, halias, h⟩ := Except.bind_eq_ok h
  cases h
  rw [expectExportName_eq] at hname
  obtain ⟨t, ht, himported⟩ := exists_of_accept hs rfl hname
  have hs₁ := hs.of_follows ht.follows
  dsimp only [aliasOr] at halias
  split at halias
  · next hat =>
      have has : s₁.current.kind = .identifier "as" := atWord_iff.1 hat
      have hpass := Passes.single hs₁ (by simp [atWord_iff.1 hat])
      obtain ⟨u, hu, hlocal⟩ :=
        exists_of_expectIdentifier (hs₁.of_follows hpass.follows) halias
      refine ⟨[t, s₁.current, u], ht.trans (hpass.trans hu), ?_⟩
      simp only [List.map_cons, List.map_nil, has, hlocal]
      exact .renamed himported localName
  · cases halias
    exact ⟨[t], ht, .unnamed trivial himported⟩

/-- The names of an import up to the brace behind them. -/
theorem exists_of_importList {n : Nat} {bs : List ImportBinding} (hs : s.Closed)
    (h : closedList importedName n s = .ok (bs, s')) :
    ∃ ts closing, s.Passes (ts ++ [closing]) s' ∧ closing.kind = .rightBrace ∧
      ImportForm.Entries True (ts.map Token.kind) bs := by
  induction n generalizing s bs with
  | zero => cases h
  | succ n ih =>
      rw [closedList] at h
      split at h
      · next hbrace =>
          cases h
          exact ⟨[], s.current, .single hs (by simp [hbrace]), hbrace, .nil⟩
      · obtain ⟨⟨b, s₁⟩, hread, h⟩ := Except.bind_eq_ok h
        obtain ⟨ts, hts, hentry⟩ := exists_of_importedName hs hread
        have hs₁ := hs.of_follows hts.follows
        dsimp only at h
        split at h
        · next hcomma =>
            obtain ⟨⟨bs, s₂⟩, htail, h⟩ := Except.bind_eq_ok h
            cases h
            have hkind : s₁.current.kind = .comma := hcomma
            have hpass := Passes.single hs₁ (by simp [hcomma])
            obtain ⟨us, closing, hus, hclosing, hentries⟩ := ih (hs₁.of_follows hpass.follows) htail
            refine ⟨ts ++ s₁.current :: us, closing, ?_, hclosing, ?_⟩
            · simpa using hts.trans (hpass.trans hus)
            · rw [List.map_append, List.map_cons, hkind]
              exact .cons hentry hentries
        · obtain ⟨⟨_, s₂⟩, hclose, h⟩ := Except.bind_eq_ok h
          cases h
          obtain ⟨closing, hpass, hkind⟩ := exists_of_accept hs₁ (by simp [only]) hclose
          refine ⟨ts, closing, hts.trans hpass, ?_, .last hentry⟩
          unfold only at hkind
          split at hkind
          · assumption
          · cases hkind

/-- What is bound besides a default binding. Where there is one, it may be nothing. -/
theorem exists_of_furtherBindings {n : Nat} {hasDefault : Bool} {bs : List ImportBinding}
    (hs : s.Closed) (h : furtherBindings n hasDefault s = .ok (bs, s')) :
    (∃ ts, s.Passes ts s' ∧ ImportForm.Further True (ts.map Token.kind) bs) ∨
      hasDefault = true ∧ bs = [] ∧ s' = s := by
  rw [furtherBindings_eq, importNames_eq, ← closedList_eq] at h
  split at h
  · next hstar =>
      have hkind : s.current.kind = .star := hstar
      have hpass := Passes.single hs (by simp [hstar])
      have hs₁ := hs.of_follows hpass.follows
      obtain ⟨s₁, has, h⟩ := Except.bind_eq_ok h
      obtain ⟨⟨localName, s₂⟩, hlocal, h⟩ := Except.bind_eq_ok h
      cases h
      obtain ⟨t, ht, has⟩ := exists_of_expectWord hs₁ has
      obtain ⟨u, hu, hlocal⟩ := exists_of_expectIdentifier (hs₁.of_follows ht.follows) hlocal
      refine .inl ⟨[s.current, t, u], hpass.trans (ht.trans hu), ?_⟩
      simp only [List.map_cons, List.map_nil, hkind, has, hlocal]
      exact .namespace localName
  · split at h
    · next hbrace =>
        have hkind : s.current.kind = .leftBrace := hbrace
        have hpass := Passes.single hs (by simp [hbrace])
        obtain ⟨ts, closing, hts, hclosing, hentries⟩ :=
          exists_of_importList (hs.of_follows hpass.follows) h
        refine .inl ⟨s.current :: ts ++ [closing], hpass.trans hts, ?_⟩
        rw [List.map_append, List.map_cons, hkind, List.map_singleton, hclosing]
        exact .names hentries
    · split at h <;> cases h
      next hdefault => exact .inr ⟨hdefault, rfl, rfl⟩

/-- What is bound by an import that is no string alone. -/
theorem exists_of_bindings {n : Nat} {first more : List ImportBinding} {s₁ : TokenStream}
    (hs : s.Closed) (hfirst : defaultBinding s = (first, s₁))
    (hmore : furtherBindings n (!first.isEmpty) s₁ = .ok (more, s')) :
    ∃ ts, s.Passes ts s' ∧ ImportForm.Clause True (ts.map Token.kind) (first ++ more) := by
  rw [defaultBinding_eq] at hfirst
  -- without a default binding something else is bound
  have hnone : ∀ {s}, s.Closed → furtherBindings n false s = .ok (more, s') →
      ∃ ts, s.Passes ts s' ∧ ImportForm.Clause True (ts.map Token.kind) more := by
    intro s hs hmore
    obtain ⟨ts, hts, hfurther⟩ | ⟨hdefault, -⟩ := exists_of_furtherBindings hs hmore
    · exact ⟨ts, hts, .further hfurther⟩
    · cases hdefault
  cases hread : identifier? s.kind with
  | none =>
      rw [hread] at hfirst
      cases hfirst
      exact hnone hs hmore
  | some name =>
      obtain ⟨t, hpass, hname⟩ : ∃ t, s.Passes [t] s.advance ∧ t.kind = .identifier name := by
        refine exists_of_expectIdentifier hs ?_
        rw [expectIdentifier_eq, accept, hread]
      have hs₁ := hs.of_follows hpass.follows
      rw [hread] at hfirst
      dsimp only [Option.elim] at hfirst
      split at hfirst
      · next hcomma =>
          cases hfirst
          have hkind : s.advance.current.kind = .comma := hcomma
          have hpass₁ := Passes.single hs₁ (by simp [hcomma])
          have hpasses := hpass.trans hpass₁
          obtain ⟨ts, hts, hfurther⟩ | ⟨-, rfl, rfl⟩ :=
            exists_of_furtherBindings (hs₁.of_follows hpass₁.follows) hmore
          · refine ⟨_, hpasses.trans hts, ?_⟩
            simp only [List.map_append, List.map_cons, List.map_nil, hname, hkind]
            exact .both name hfurther
          · refine ⟨_, hpasses, ?_⟩
            simp only [List.map_append, List.map_cons, List.map_nil, hname, hkind]
            exact .dangling trivial name
      · split at hfirst <;> cases hfirst
        · next hfrom =>
            -- the token in front of `from` starts no other binding
            have hmore' : more = [] ∧ s' = s.advance := by
              rw [furtherBindings_eq, hfrom] at hmore
              simp at hmore
              exact ⟨hmore.1, hmore.2.symm⟩
            obtain ⟨rfl, rfl⟩ := hmore'
            refine ⟨[t], hpass, ?_⟩
            rw [List.map_singleton, hname]
            exact .default name
        · exact hnone hs hmore

/-- The tokens of an import declaration behind `import`. -/
theorem exists_of_importClause {n : Nat} {source : Specifier} {bs : List ImportBinding}
    (hs : s.Closed) (h : importClause n s = .ok ((source, bs), s')) :
    ∃ ts attributes, s.Passes (ts ++ attributes) s' ∧ IsAttributes attributes ∧
      ImportForm True (ts.map Token.kind) source bs := by
  unfold importClause at h
  cases hstring : string? s.kind with
  | some url =>
      have hkind : s.current.kind = .string url := by
        show s.kind = _
        cases hkind : s.kind <;> simp [hkind, string?] at hstring
        rw [hstring]
      rw [hstring] at h
      obtain ⟨s₁, hskip, h⟩ := Except.bind_eq_ok h
      cases h
      have hpass := Passes.single hs (show s.current.kind ≠ _ by simp [hkind])
      obtain ⟨attributes, hattributes, hends⟩ :=
        exists_of_skipAttributes (hs.of_follows hpass.follows) hskip
      refine ⟨[s.current], attributes, hpass.trans hattributes, hends, ?_⟩
      rw [List.map_singleton, hkind]
      exact .effect url
  | none =>
      rw [hstring] at h
      obtain ⟨⟨first, s₁⟩, hfirst, h⟩ := Except.bind_eq_ok h
      obtain ⟨⟨more, s₂⟩, hmore, h⟩ := Except.bind_eq_ok h
      obtain ⟨s₃, hfrom, h⟩ := Except.bind_eq_ok h
      obtain ⟨⟨source', s₄⟩, hsource, h⟩ := Except.bind_eq_ok h
      cases h
      obtain ⟨⟨source', s₅⟩, hname, hsource⟩ := Except.bind_eq_ok hsource
      obtain ⟨s₆, hskip, hsource⟩ := Except.bind_eq_ok hsource
      cases hsource
      rw [expectSpecifier_eq] at hname
      -- the tokens of the clause: what is bound, `from`, the specifier and the attributes
      obtain ⟨ts, hts, hclause⟩ := exists_of_bindings hs (Except.ok.inj hfirst) hmore
      have hs₂ := hs.of_follows hts.follows
      obtain ⟨t, ht, hfrom⟩ := exists_of_expectWord hs₂ hfrom
      have hs₃ := hs₂.of_follows ht.follows
      obtain ⟨u, hu, hname⟩ := exists_of_accept hs₃ rfl hname
      obtain ⟨attributes, hattributes, hends⟩ :=
        exists_of_skipAttributes (hs₃.of_follows hu.follows) hskip
      refine ⟨ts ++ [t, u], attributes, ?_, hends, ?_⟩
      · simpa using hts.trans (ht.trans (hu.trans hattributes))
      · simp only [List.map_append, List.map_cons, List.map_nil, hfrom]
        exact .fromSource hclause hname

/-- The end of a statement passes a semicolon or nothing. -/
theorem exists_of_endStatement {last : Token} (hs : s.Closed)
    (h : s.endStatement = .ok (last, s')) : ∃ ts, s.Passes ts s' ∧ EndsStatement ts s' := by
  rw [endStatement_eq] at h
  split at h
  · next hsemicolon =>
      cases h
      have hkind : s.current.kind = .semicolon := hsemicolon
      exact ⟨[s.current], .single hs (by simp [hsemicolon]), .semicolon hkind _⟩
  · split at h <;> cases h
    next hends => exact ⟨[], .refl _, .place hends⟩

/-- The tokens between two places are those of an import declaration behind `import`: `clause`, its
attributes and its end. -/
def ImportTokens (clause : List Token) (s s' : TokenStream) : Prop :=
  ∃ attributes ending, s.Passes (clause ++ attributes ++ ending) s' ∧
    IsAttributes attributes ∧ EndsStatement ending s'

/-- The tokens of an import declaration stand at the start of those behind `import`. -/
theorem ImportTokens.isPrefix {clause : List Token} (h : ImportTokens clause s s') :
    clause.map Token.kind <+: s.toList.map Token.kind := by
  obtain ⟨attributes, ending, hpasses, -⟩ := h
  rw [hpasses.toList_eq, List.append_assoc, List.append_assoc]
  exact (List.prefix_append _ _).map _

/-- What the parser accepts as an import declaration has one of the forms or of the two lax ones. It
has one of the forms exactly where its tokens are explicit. Then each local name is an identifier,
and so no reserved word where the tokens are those of a text. -/
theorem importDeclaration_form {n : Nat} {statement : Statement} (hs : s.Closed)
    (h : importDeclaration n s = .ok (statement, s')) :
    ∃ clause source bindings span, statement = .importFrom source bindings span ∧
      ImportTokens clause s.advance s' ∧
      ImportForm True (clause.map Token.kind) source bindings ∧
      (ImportForm False (clause.map Token.kind) source bindings ↔
        ImportForm.Explicit (clause.map Token.kind)) ∧
      (ImportForm.Explicit (clause.map Token.kind) → ∀ b ∈ bindings,
        (∃ t ∈ clause, t.kind = .identifier b.localName) ∧
        ∀ text, s.Follows (ofTokens (Token.ofChars text)) →
          Keyword.ofWord? b.localName = none) := by
  rw [importDeclaration_eq] at h
  obtain ⟨⟨⟨source, bindings⟩, s₁⟩, hclause, h⟩ := Except.bind_eq_ok h
  obtain ⟨⟨last, s₂⟩, hend, h⟩ := Except.bind_eq_ok h
  cases h
  have hs₁ := hs.of_follows (follows_advance s)
  obtain ⟨clause, attributes, hpasses, hattributes, hform⟩ := exists_of_importClause hs₁ hclause
  obtain ⟨ending, hending, hends⟩ := exists_of_endStatement (hs₁.of_follows hpasses.follows) hend
  refine ⟨clause, source, bindings, _, rfl,
    ⟨attributes, ending, hpasses.trans hending, hattributes, hends⟩, hform,
    ⟨ImportForm.explicit, hform.strict⟩, fun hexplicit b hb => ?_⟩
  obtain ⟨t, ht, hkind⟩ := List.mem_map.1 ((hform.strict hexplicit).exists_identifier b hb)
  refine ⟨⟨t, ht, hkind⟩, fun text htext => ?_⟩
  have hmem : t ∈ s.advance.toList := by
    rw [hpasses.toList_eq]
    exact List.mem_append_left _ (List.mem_append_left _ ht)
  have hwhole := ((follows_advance s).trans htext).subset hmem
  rw [toList_ofTokens (ofChars_ne_nil text)] at hwhole
  exact Token.isUnreserved_of_mem hwhole _ hkind

/-- An import with a default binding, names of all kinds and attributes. -/
def mixedImport : List Char :=
  "import d, \x7b default as x, \"s t\" as y, from, \x7d from frag with \x7b a: 1 \x7d".toList

/-- The tokens of `mixedImport` behind `import`, up to its attributes. -/
def mixedClause : List Token :=
  [⟨.identifier "d", ⟨7, 8⟩, false⟩, ⟨.comma, ⟨8, 9⟩, false⟩, ⟨.leftBrace, ⟨10, 11⟩, false⟩,
    ⟨.keyword .«default», ⟨12, 19⟩, false⟩, ⟨.identifier "as", ⟨20, 22⟩, false⟩,
    ⟨.identifier "x", ⟨23, 24⟩, false⟩, ⟨.comma, ⟨24, 25⟩, false⟩,
    ⟨.string "s t", ⟨26, 31⟩, false⟩, ⟨.identifier "as", ⟨32, 34⟩, false⟩,
    ⟨.identifier "y", ⟨35, 36⟩, false⟩, ⟨.comma, ⟨36, 37⟩, false⟩,
    ⟨.identifier "from", ⟨38, 42⟩, false⟩, ⟨.comma, ⟨42, 43⟩, false⟩,
    ⟨.rightBrace, ⟨44, 45⟩, false⟩, ⟨.identifier "from", ⟨46, 50⟩, false⟩,
    ⟨.identifier "frag", ⟨51, 55⟩, false⟩]

/-- The specifier and the bindings of `mixedImport`. -/
def mixedBindings : List ImportBinding :=
  [.default "d", .named "default" "x", .named "s t" "y", .named "from" "from"]

/-- Where the import of `mixedImport` ends. -/
def mixedEnd : TokenStream :=
  ⟨some ⟨.rightBrace, ⟨68, 69⟩, false⟩, ⟨.endOfInput, ⟨69, 69⟩, false⟩, []⟩

/-- The form of an import with a default binding, names of all kinds and attributes. -/
theorem importDeclaration_form_mixed :
    (ofTokens (Token.ofChars mixedImport)).Closed ∧
    importDeclaration 10 (ofTokens (Token.ofChars mixedImport)) =
      .ok (.importFrom (.fragment "frag") mixedBindings ⟨0, 69⟩, mixedEnd) ∧
    ImportForm.Explicit (mixedClause.map Token.kind) ∧
    ∃ clause source bindings span,
      Statement.importFrom (.fragment "frag") mixedBindings ⟨0, 69⟩ =
        .importFrom source bindings span ∧
      ImportTokens clause (ofTokens (Token.ofChars mixedImport)).advance mixedEnd ∧
      ImportForm True (clause.map Token.kind) source bindings ∧
      (ImportForm False (clause.map Token.kind) source bindings ↔
        ImportForm.Explicit (clause.map Token.kind)) ∧
      (ImportForm.Explicit (clause.map Token.kind) → ∀ b ∈ bindings,
        (∃ t ∈ clause, t.kind = .identifier b.localName) ∧
        ∀ text, (ofTokens (Token.ofChars mixedImport)).Follows (ofTokens (Token.ofChars text)) →
          Keyword.ofWord? b.localName = none) := by
  have htokens : Token.ofChars mixedImport =
      ⟨.keyword .«import», ⟨0, 6⟩, false⟩ :: mixedClause ++
        [⟨.keyword .«with», ⟨56, 60⟩, false⟩, ⟨.leftBrace, ⟨61, 62⟩, false⟩,
          ⟨.identifier "a", ⟨63, 64⟩, false⟩, ⟨.operator ":", ⟨64, 65⟩, false⟩,
          ⟨.number "1", ⟨66, 67⟩, false⟩, ⟨.rightBrace, ⟨68, 69⟩, false⟩,
          ⟨.endOfInput, ⟨69, 69⟩, false⟩] := by
    decide +kernel
  have haccepted : importDeclaration 10 (ofTokens (Token.ofChars mixedImport)) =
      .ok (.importFrom (.fragment "frag") mixedBindings ⟨0, 69⟩, mixedEnd) := by
    rw [htokens]
    rfl
  have hexplicit : ImportForm.Explicit (mixedClause.map Token.kind) :=
    ⟨by simp [mixedClause], by decide⟩
  exact ⟨closed_ofChars _, haccepted, hexplicit,
    importDeclaration_form (closed_ofChars _) haccepted⟩

/-- An import with nothing behind the comma of its default binding. -/
def danglingImport : List Char :=
  "import a, from \"m\";".toList

/-- An import that binds a reserved word. -/
def reservedImport : List Char :=
  "import \x7b default \x7d from \"m\";".toList

/-- An import that binds a string. -/
def stringImport : List Char :=
  "import \x7b \"s\" \x7d from \"m\";".toList

/-- An import may be accepted though none of its forms begins behind `import`. -/
theorem exists_not_importForm :
    (SyntaxTree.parse danglingImport =
        .ok ⟨danglingImport, [.importFrom (.url "m") [.default "a"] ⟨0, 19⟩]⟩ ∧
      ∀ clause s' source bindings,
        ImportTokens clause (ofTokens (Token.ofChars danglingImport)).advance s' →
          ¬ImportForm False (clause.map Token.kind) source bindings) ∧
    (SyntaxTree.parse reservedImport =
        .ok ⟨reservedImport, [.importFrom (.url "m") [.named "default" "default"] ⟨0, 28⟩]⟩ ∧
      ∀ clause s' source bindings,
        ImportTokens clause (ofTokens (Token.ofChars reservedImport)).advance s' →
          ¬ImportForm False (clause.map Token.kind) source bindings) ∧
    SyntaxTree.parse stringImport =
        .ok ⟨stringImport, [.importFrom (.url "m") [.named "s" "s"] ⟨0, 24⟩]⟩ ∧
      ∀ clause s' source bindings,
        ImportTokens clause (ofTokens (Token.ofChars stringImport)).advance s' →
          ¬ImportForm False (clause.map Token.kind) source bindings := by
  have hdangling : Token.ofChars danglingImport =
      [⟨.keyword .«import», ⟨0, 6⟩, false⟩, ⟨.identifier "a", ⟨7, 8⟩, false⟩,
        ⟨.comma, ⟨8, 9⟩, false⟩, ⟨.identifier "from", ⟨10, 14⟩, false⟩,
        ⟨.string "m", ⟨15, 18⟩, false⟩, ⟨.semicolon, ⟨18, 19⟩, false⟩,
        ⟨.endOfInput, ⟨19, 19⟩, false⟩] := by
    decide +kernel
  have hreserved : Token.ofChars reservedImport =
      [⟨.keyword .«import», ⟨0, 6⟩, false⟩, ⟨.leftBrace, ⟨7, 8⟩, false⟩,
        ⟨.keyword .«default», ⟨9, 16⟩, false⟩, ⟨.rightBrace, ⟨17, 18⟩, false⟩,
        ⟨.identifier "from", ⟨19, 23⟩, false⟩, ⟨.string "m", ⟨24, 27⟩, false⟩,
        ⟨.semicolon, ⟨27, 28⟩, false⟩, ⟨.endOfInput, ⟨28, 28⟩, false⟩] := by
    decide +kernel
  have hstring : Token.ofChars stringImport =
      [⟨.keyword .«import», ⟨0, 6⟩, false⟩, ⟨.leftBrace, ⟨7, 8⟩, false⟩,
        ⟨.string "s", ⟨9, 12⟩, false⟩, ⟨.rightBrace, ⟨13, 14⟩, false⟩,
        ⟨.identifier "from", ⟨15, 19⟩, false⟩, ⟨.string "m", ⟨20, 23⟩, false⟩,
        ⟨.semicolon, ⟨23, 24⟩, false⟩, ⟨.endOfInput, ⟨24, 24⟩, false⟩] := by
    decide +kernel
  -- the clause ends with the specifier, so that its tokens are fixed by those of the text
  refine ⟨⟨SyntaxTree.parse_of_tokens hdangling rfl, fun clause s' source bindings h hform => ?_⟩,
    ⟨SyntaxTree.parse_of_tokens hreserved rfl, fun clause s' source bindings h hform => ?_⟩,
    SyntaxTree.parse_of_tokens hstring rfl, fun clause s' source bindings h hform => ?_⟩
  · have hclause := hform.eq_of_isPrefix [.identifier "a", .comma]
      (hdangling ▸ h.isPrefix) (by simp) (by simp) (by simp)
    exact hform.explicit.bindings _ _ hclause
  · have hclause := hform.eq_of_isPrefix [.leftBrace, .keyword .«default», .rightBrace]
      (hreserved ▸ h.isPrefix) (by simp) (by simp) (by simp)
    have hlocals := hform.explicit.locals
    rw [hclause] at hlocals
    revert hlocals
    decide
  · have hclause := hform.eq_of_isPrefix [.leftBrace, .string "s", .rightBrace]
      (hstring ▸ h.isPrefix) (by simp) (by simp) (by simp)
    have hlocals := hform.explicit.locals
    rw [hclause] at hlocals
    revert hlocals
    decide

end Parser

end ModuleGraph
